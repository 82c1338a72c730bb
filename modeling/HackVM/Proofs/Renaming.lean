import Mathlib
import HackVM.Proofs.Referents

/-!
# Names do not matter

Renaming units, functions and the labels of each function leaves the loaded program as it is, as long as
the program stays acceptable. The code of the renamed program has the same shape, and its names correspond
to those of the original one for one. Loading looks at names only to compare them with each other, so
two such codes give the same words.
-/

namespace HackVM

section Correspondence

variable {R : String → String → Prop}

/-- Related names are compared in the same way. -/
lemma beq_eq_beq_of_related (unique : Relator.BiUnique R) {name name' other other' : String}
    (h : R name name') (related : R other other') : (name == other) = (name' == other') := by
  rw [Bool.eq_iff_iff, beq_iff_eq, beq_iff_eq]
  exact Relator.rel_eq unique h related

/-- Instructions that differ only in their names, which correspond. -/
inductive Instruction.Alike (R : String → String → Prop) : Instruction → Instruction → Prop where
  | label {name name' : String} (related : R name name') : Alike R (.label name) (.label name')
  | symbol {name name' : String} (related : R name name') :
      Alike R (.load (.symbol name)) (.load (.symbol name'))
  | constant (value : UInt16) : Alike R (.load (.constant value)) (.load (.constant value))
  | register (cell : Register) : Alike R (.load (.register cell)) (.load (.register cell))
  | compute (dest : Dest) (comp : Comp) (jump : Jump) :
      Alike R (.compute dest comp jump) (.compute dest comp jump)

/-- An instruction without its name. -/
def Instruction.blank : Instruction → Instruction
  | .label _ => .label ""
  | .load (.symbol _) => .load (.symbol "")
  | instruction => instruction

/-- Instructions that agree without their names differ at most in these. -/
lemma Instruction.alike_of_blank {instruction instruction' : Instruction}
    (same : instruction.blank = instruction'.blank) :
    Alike (fun _ _ => True) instruction instruction' := by
  cases instruction with
  | label name =>
    cases instruction' with
    | label name' => exact .label trivial
    | load operand' => cases operand' <;> cases same
    | compute => cases same
  | load operand =>
    cases instruction' with
    | load operand' =>
      cases operand with
      | symbol name =>
        cases operand' with
        | symbol name' => exact .symbol trivial
        | _ => cases same
      | constant value =>
        cases operand' <;> cases same
        exact .constant value
      | register cell =>
        cases operand' <;> cases same
        exact .register cell
    | _ => cases operand <;> cases same
  | compute dest comp jump =>
    cases instruction' with
    | compute =>
      cases same
      exact .compute dest comp jump
    | load operand' => cases operand' <;> cases same
    | label => cases same

namespace Code

/-- Code without its names. -/
def shape (code : Code) : Code :=
  code.map Instruction.blank

/-- The shape of code is put together from the shapes of its parts. -/
lemma shape_append (first second : Code) :
    shape (first ++ second) = first.shape ++ second.shape :=
  List.map_append

/-- Code that differs only in its names, which correspond. -/
def Alike (R : String → String → Prop) (code code' : Code) : Prop :=
  List.Forall₂ (Instruction.Alike R) code code'

/-- Code of the same shape differs only in its names, and these are its labels and its symbols. -/
lemma alike_of_shape {code code' : Code} (same : code.shape = code'.shape)
    (labels : List.Forall₂ R code.labels code'.labels)
    (symbols : List.Forall₂ R code.symbols code'.symbols) : Alike R code code' := by
  induction code generalizing code' with
  | nil =>
    cases code' with
    | nil => exact .nil
    | cons => cases same
  | cons instruction rest ih =>
    cases code' with
    | nil => cases same
    | cons instruction' rest' =>
      obtain ⟨head, tail⟩ := List.cons.inj same
      -- The heads are of one kind; a name in them is the first of the labels or of the symbols.
      cases Instruction.alike_of_blank head with
      | label =>
        cases labels with
        | cons related labels => exact .cons (.label related) (ih tail labels symbols)
      | symbol =>
        cases symbols with
        | cons related symbols => exact .cons (.symbol related) (ih tail labels symbols)
      | constant value => exact .cons (.constant value) (ih tail labels symbols)
      | register cell => exact .cons (.register cell) (ih tail labels symbols)
      | compute dest comp jump => exact .cons (.compute dest comp jump) (ih tail labels symbols)

namespace Alike

variable {code code' : Code} (alike : Alike R code code')

include alike

/-- Alike code has the same size. -/
lemma size_eq : code.size = code'.size := by
  induction alike with
  | nil => rfl
  | cons head _ ih =>
    rw [size, size, List.countP_cons, List.countP_cons, ← size, ← size, ih]
    cases head <;> rfl

/-- The symbols of alike code correspond. -/
lemma symbols : List.Forall₂ R code.symbols code'.symbols := by
  refine List.rel_filterMap (fun instruction instruction' h => ?_) alike
  cases h with
  | symbol related => exact .some related
  | _ => exact .none

/-- Corresponding names stand in front of the same address. -/
lemma lookup_labelTable (unique : Relator.BiUnique R) {name name' : String} (h : R name name')
    (address : Nat) :
    (code.labelTable address).lookup name = (code'.labelTable address).lookup name' := by
  induction alike generalizing address with
  | nil => rfl
  | cons head _ ih =>
    cases head with
    | label related =>
      rw [labelTable, labelTable, List.lookup_cons, List.lookup_cons, ih,
        beq_eq_beq_of_related unique h related]
    | _ => exact ih (address + 1)

end Alike

end Code

namespace Image

variable {names names' : List String} {name name' : String}

/-- Corresponding lists of names stay so without their repetitions. -/
lemma forall₂_distinct (unique : Relator.BiUnique R) (related : List.Forall₂ R names names') :
    List.Forall₂ R (distinct names) (distinct names') := by
  refine List.rel_foldl (fun found found' hf name name' hn => ?_) .nil related
  have same : name ∈ found ↔ name' ∈ found' := List.rel_mem unique hn hf
  by_cases h : name ∈ found
  · simpa [h, same.mp h] using hf
  · simpa [h, mt same.mpr h] using List.rel_append hf (.cons hn .nil)

/-- Corresponding names have the same place in corresponding lists. -/
lemma idxOf_eq_of_forall₂ (unique : Relator.BiUnique R) (related : List.Forall₂ R names names')
    (h : R name name') : names.idxOf name = names'.idxOf name' := by
  induction related with
  | nil => rfl
  | cons head _ ih =>
    rw [List.idxOf_cons, List.idxOf_cons, ih, beq_eq_beq_of_related unique head h]

/-- Code that differs only in its names, none of which the platform defines, is loaded to the same
words. -/
lemma rom_eq_of_alike {code code' : Code} {image image' : Image} (unique : Relator.BiUnique R)
    (free : ∀ name name', R name name' → predefined? name = none ∧ predefined? name' = none)
    (alike : Code.Alike R code code') (loads : ofCode code = .ok image)
    (loads' : ofCode code' = .ok image') : image'.rom = image.rom := by
  obtain ⟨-, rfl⟩ := ofCode_eq_ok_iff.mp loads
  obtain ⟨-, rfl⟩ := ofCode_eq_ok_iff.mp loads'
  -- Labels, variables and words in turn: each looks only at what corresponds.
  have fixed : ∀ name name', R name name' →
      fixed? (code.labelTable 0) name = fixed? (code'.labelTable 0) name' := by
    intro name name' h
    rw [fixed?, fixed?, (free name name' h).1, (free name name' h).2,
      alike.lookup_labelTable unique h]
  have vars : List.Forall₂ R (variablesOf (code.labelTable 0) code)
      (variablesOf (code'.labelTable 0) code') := by
    refine forall₂_distinct unique (List.rel_filter ?_ alike.symbols)
    intro name name' h
    beta_reduce
    rw [fixed name name' h]
  have cells_eq : List.Forall₂ Eq
      (cells (code.labelTable 0) (variablesOf (code.labelTable 0) code) code)
      (cells (code'.labelTable 0) (variablesOf (code'.labelTable 0) code') code') := by
    refine List.rel_filterMap (fun instruction instruction' h => ?_) alike
    cases h with
    | label => exact .none
    | @symbol name name' related =>
      refine .some (congrArg Cell.load ?_)
      rw [operandValue, operandValue, symbolValue, symbolValue, fixed name name' related,
        idxOf_eq_of_forall₂ unique vars related]
    | _ => exact .some rfl
  rw [List.forall₂_eq_eq_eq] at cells_eq
  exact congrArg List.toArray cells_eq.symm

end Image

end Correspondence

/-- New names for units, for functions and for the labels of each function. -/
structure Renaming where
  unit : String → String
  function : String → String
  label : (function : String) → String → String

section Renaming

variable (ρ : Renaming)

/-- The command with new names, in a function. -/
def Command.rename (function : String) : Command → Command
  | .label name => .label (ρ.label function name)
  | .goto name => .goto (ρ.label function name)
  | .ifGoto name => .ifGoto (ρ.label function name)
  | .function name locals => .function (ρ.function name) locals
  | .call name arguments => .call (ρ.function name) arguments
  | command => command

/-- The commands of a unit with new names; `current` is the function in front of them. -/
def SourceUnit.renameFrom : (current : String) → List Command → List Command
  | _, [] => []
  | current, command :: rest =>
    command.rename ρ (command.within current) :: renameFrom (command.within current) rest

/-- The program with new names. -/
def Program.rename (program : Program) : Program :=
  program.map fun unit => ⟨ρ.unit unit.name, SourceUnit.renameFrom ρ "" unit.commands⟩

/-- The settings with a new name for the function that the program starts with. -/
def Settings.rename (settings : Settings) : Settings :=
  { settings with entryPoint := ρ.function settings.entryPoint }

/-- The scope under its new names. -/
def Scope.rename (scope : Scope) : Scope :=
  ⟨ρ.unit scope.unit, ρ.function scope.function⟩

/-- The mark under its new names. -/
def Mark.rename : Mark → Mark
  | .entry scope => .entry (scope.rename ρ)
  | .user scope name => .user (scope.rename ρ) (ρ.label scope.function name)
  | .loop scope => .loop (scope.rename ρ)
  | .back scope tag serial => .back (scope.rename ρ) tag serial

/-- What a symbol names, under its new names. -/
def Referent.rename : Referent → Referent
  | .reserved text => .reserved text
  | .label mark => .label (mark.rename ρ)
  | .static unit index => .static (ρ.unit unit) index

/-- The line under its new names. -/
def Line.rename (line : Line) : Line :=
  ⟨line.scope.rename ρ, line.command.rename ρ line.scope.function⟩

end Renaming

variable {ρ : Renaming}

/-- What an index of a segment names depends on the unit only in the symbol of a variable. -/
lemma Segment.eq_or_variable_of_resolve {segment : Segment} {unit unit' : String} {index : UInt16}
    {location location' : Location} (h : segment.resolve unit index = .ok location)
    (h' : segment.resolve unit' index = .ok location') :
    location' = location ∨
      ∃ symbol symbol', location = .variable symbol ∧ location' = .variable symbol' := by
  have fits := (resolve_isOk_iff segment unit).mp ⟨location, h⟩
  rw [resolve.eq_def, if_neg (UInt16.not_lt.mpr fits)] at h h'
  cases segment with
  | statics =>
    cases h
    cases h'
    exact .inr ⟨_, _, rfl, rfl⟩
  | _ =>
    cases h
    cases h'
    exact .inl rfl

namespace Line

variable {functions functions' : List (String × String)} {inlineMax : UInt16}

/-- The marks of a renamed line are the renamed marks. -/
lemma marks_rename (returns : Nat) (line : Line) :
    (line.rename ρ).marks inlineMax returns = (line.marks inlineMax returns).map (Mark.rename ρ) := by
  obtain ⟨scope, command⟩ := line
  cases command with
  | operate operation => cases operation <;> rfl
  | function name locals =>
    show Mark.entry _ :: (if locals ≤ inlineMax then [] else _) =
      List.map _ (Mark.entry scope :: if locals ≤ inlineMax then [] else [Mark.loop scope])
    split_ifs <;> rfl
  | _ => rfl

/-- Renaming a line keeps its number of return labels. -/
lemma returnLabels_rename (line : Line) :
    (line.rename ρ).command.returnLabels = line.command.returnLabels := by
  obtain ⟨scope, command⟩ := line
  cases command <;> rfl

/-- The marks of renamed lines are the renamed marks. -/
lemma marksOf_rename (returns : Nat) (lines : List Line) :
    marksOf inlineMax returns (lines.map (rename ρ)) =
      (marksOf inlineMax returns lines).map (Mark.rename ρ) := by
  induction lines generalizing returns with
  | nil => rfl
  | cons line rest ih =>
    rw [List.map_cons, marksOf, marksOf, marks_rename, returnLabels_rename, ih, List.map_append]

section Found

variable (found : ∀ name ∈ functions.map Prod.fst,
  (functions'.lookup (ρ.function name)).getD "" = ρ.unit ((functions.lookup name).getD ""))

include found

/-- The referents of a renamed line are the renamed referents. -/
lemma referents_rename (returns : Nat) {line : Line}
    (wf : line.command.WellFormed (functions.map Prod.fst)) :
    (line.rename ρ).referents functions' inlineMax returns =
      (line.referents functions inlineMax returns).map (Referent.rename ρ) := by
  obtain ⟨scope, command⟩ := line
  cases command with
  | push segment index | pop segment index => cases segment <;> rfl
  | operate operation => cases operation <;> rfl
  | function name locals =>
    rw [rename, Command.rename, referents_function, referents_function]
    split_ifs <;> rfl
  | call name arguments =>
    rw [rename, Command.rename, referents_call, referents_call, found name wf.2]
    rfl
  | _ => rfl

/-- The referents of renamed lines are the renamed referents. -/
lemma referentsOf_rename (returns : Nat) {lines : List Line}
    (wf : ∀ line ∈ lines, line.command.WellFormed (functions.map Prod.fst)) :
    referentsOf functions' inlineMax returns (lines.map (rename ρ)) =
      (referentsOf functions inlineMax returns lines).map (Referent.rename ρ) := by
  induction lines generalizing returns with
  | nil => rfl
  | cons line rest ih =>
    rw [List.map_cons, referentsOf, referentsOf, returnLabels_rename, List.map_append,
      referents_rename found returns (wf line List.mem_cons_self),
      ih _ fun line hl => wf line (.tail _ hl)]

end Found

/-- The functions that start among renamed lines are the renamed ones. -/
lemma starts_rename (lines : List Line) :
    starts (lines.map (rename ρ)) = (starts lines).map (Scope.rename ρ) := by
  induction lines with
  | nil => rfl
  | cons line rest ih =>
    obtain ⟨scope, command⟩ := line
    rw [List.map_cons, starts_cons, starts_cons, ih, List.map_append]
    cases command <;> rfl

/-- The static variables of renamed lines are the renamed ones. -/
lemma statics_rename (lines : List Line) :
    (lines.map (rename ρ)).filterMap static? =
      (lines.filterMap static?).map fun cell => (ρ.unit cell.1, cell.2) := by
  have own : ∀ line : Line, (line.rename ρ).static? =
      line.static?.map fun cell => (ρ.unit cell.1, cell.2) := by
    intro line
    obtain ⟨scope, command⟩ := line
    cases command with
    | push segment index | pop segment index => cases segment <;> rfl
    | _ => rfl
  rw [List.filterMap_map, List.map_filterMap]
  exact congrArg (List.filterMap · lines) (funext own)

/-- The code of a line keeps its shape under new names. -/
lemma Lowers.shape_eq {returns returns' : Nat} {scope : Scope} {command : Command}
    {code code' : Code} (h : Lowers functions inlineMax returns scope command code)
    (h' : Lowers functions' inlineMax returns' (scope.rename ρ)
      (command.rename ρ scope.function) code') : code'.shape = code.shape := by
  cases h with
  | push resolved =>
    cases h' with
    | push resolved' =>
      rcases Segment.eq_or_variable_of_resolve resolved resolved' with rfl | ⟨_, _, rfl, rfl⟩ <;> rfl
  | pop resolved place =>
    cases h' with
    | pop resolved' place' =>
      rcases Segment.eq_or_variable_of_resolve resolved resolved' with rfl | ⟨_, _, rfl, rfl⟩
      · cases place.symm.trans place'
        rfl
      · cases place
        cases place'
        rfl
  | operate operation =>
    cases h'
    cases operation <;> rfl
  | @function _ locals =>
    cases h'
    rw [Scope.prologue, Scope.prologue]
    split_ifs <;> rfl
  | call =>
    cases h'
    rw [Code.callSequence, Code.callSequence, Code.loadArgumentCount]
    split_ifs <;> rfl
  | _ =>
    cases h'
    rfl

/-- Renamed lines have code of the same shape. -/
lemma shape_codeOf (returns returns' : Nat) {lines : List Line}
    (wf : ∀ line ∈ lines, line.command.WellFormed (functions.map Prod.fst))
    (wf' : ∀ line ∈ lines, (line.rename ρ).command.WellFormed (functions'.map Prod.fst)) :
    (codeOf functions' inlineMax returns' (lines.map (rename ρ))).shape =
      (codeOf functions inlineMax returns lines).shape := by
  induction lines generalizing returns returns' with
  | nil => rfl
  | cons line rest ih =>
    have lowers : Lowers functions inlineMax returns line.scope line.command _ :=
      lowers_code (wf line List.mem_cons_self)
    have lowers' : Lowers functions' inlineMax returns' (line.rename ρ).scope
      (line.rename ρ).command _ := lowers_code (wf' line List.mem_cons_self)
    rw [List.map_cons, codeOf, codeOf, Code.shape_append, Code.shape_append,
      ih _ _ (fun line hl => wf line (.tail _ hl)) fun line hl => wf' line (.tail _ hl)]
    exact congrArg (· ++ _) (lowers.shape_eq lowers')

end Line

namespace SourceUnit

/-- The lines of renamed commands are the renamed lines. -/
lemma linesFrom_renameFrom (unit current : String) (commands : List Command) :
    linesFrom (ρ.unit unit) (ρ.function current) (renameFrom ρ current commands) =
      (linesFrom unit current commands).map (Line.rename ρ) := by
  induction commands generalizing current with
  | nil => rfl
  | cons command rest ih =>
    have within : (command.rename ρ (command.within current)).within (ρ.function current) =
        ρ.function (command.within current) := by
      cases command <;> rfl
    rw [renameFrom, linesFrom, linesFrom, within, ih, List.map_cons]
    rfl

/-- In front of the start of a function it does not matter which function comes before. -/
lemma linesFrom_renameFrom_of_starts (unit : String) {commands : List Command}
    (starts : ∀ command ∈ commands.head?, command.isFunction = true) :
    linesFrom (ρ.unit unit) "" (renameFrom ρ "" commands) =
      (linesFrom unit "" commands).map (Line.rename ρ) := by
  rw [← linesFrom_renameFrom]
  cases commands with
  | nil => rfl
  | cons command rest =>
    cases command with
    | function name locals => rfl
    | _ => cases starts _ rfl

end SourceUnit

namespace Program

variable {settings : Settings} {program : Program}

namespace Accepted

variable (accepted : program.Accepted settings)
  (accepted' : (program.rename ρ).Accepted (settings.rename ρ))

include accepted

/-- The lines of a renamed program are the renamed lines. -/
lemma lines_rename : (program.rename ρ).lines = program.lines.map (Line.rename ρ) := by
  rw [lines, rename, List.flatMap_map, lines, List.map_flatMap]
  exact List.flatMap_congr fun unit hu =>
    SourceUnit.linesFrom_renameFrom_of_starts unit.name (accepted.starts unit hu)

/-- The definitions of a renamed program are the renamed definitions. -/
lemma definitions_rename : (program.rename ρ).definitions =
    program.definitions.map fun defined => (ρ.function defined.1, ρ.unit defined.2) := by
  rw [definitions_eq, definitions_eq, accepted.lines_rename, Line.starts_rename, List.map_map,
    List.map_map]
  rfl

/-- The static variables of a renamed program are the renamed ones. -/
lemma statics_rename : (program.rename ρ).statics =
    program.statics.map fun cell => (ρ.unit cell.1, cell.2) := by
  rw [statics_eq, statics_eq, accepted.lines_rename, Line.statics_rename]

/-- A renamed program knows the renamed referents. -/
lemma knows_rename {referent : Referent} (known : program.Knows settings referent) :
    (program.rename ρ).Knows (settings.rename ρ) (referent.rename ρ) := by
  cases referent with
  | reserved text => exact known
  | label mark =>
    show mark.rename ρ ∈ Line.marksOf settings.inlineLocals 0 (program.rename ρ).lines
    rw [accepted.lines_rename, Line.marksOf_rename]
    exact List.mem_map_of_mem known
  | static unit index =>
    show (ρ.unit unit, index) ∈ (program.rename ρ).statics
    rw [accepted.statics_rename]
    exact List.mem_map_of_mem (f := fun cell : String × UInt16 => (ρ.unit cell.1, cell.2)) known

include accepted'

/-- Functions are found under their new names. -/
lemma lookup_rename {name : String} (h : name ∈ program.functionNames) :
    ((program.rename ρ).definitions.lookup (ρ.function name)).getD "" =
      ρ.unit ((program.definitions.lookup name).getD "") := by
  obtain ⟨defined, hd, rfl⟩ := List.mem_map.mp h
  have hd' : (ρ.function defined.1, ρ.unit defined.2) ∈ (program.rename ρ).definitions := by
    rw [accepted.definitions_rename]
    exact List.mem_map_of_mem hd
  rw [lookup_of_mem accepted.functionsDistinct hd, lookup_of_mem accepted'.functionsDistinct hd']
  rfl

/-- The referents of a renamed program are the renamed referents. -/
lemma referents_rename : (program.rename ρ).referents (settings.rename ρ) =
    (program.referents settings).map (Referent.rename ρ) := by
  have found : ∀ name ∈ program.definitions.map Prod.fst, _ :=
    fun name => accepted.lookup_rename accepted'
  have own : Line.referentsOf (program.rename ρ).definitions (settings.rename ρ).inlineLocals 0
      (program.rename ρ).lines = (Line.referentsOf program.definitions settings.inlineLocals 0
        program.lines).map (Referent.rename ρ) := by
    rw [accepted.lines_rename]
    exact Line.referentsOf_rename found 0 fun line hl => (accepted.line_legal hl).2.2
  have entry : ((program.rename ρ).definitions.lookup (settings.rename ρ).entryPoint).getD "" =
      ρ.unit ((program.definitions.lookup settings.entryPoint).getD "") :=
    found _ accepted.entryDefined
  rw [referents, referents, own, entry]
  simp only [List.map_cons, List.map_append, List.map_map]
  rfl

/-- A renamed program has code of the same shape. -/
lemma shape_rename : ((program.rename ρ).assembly (settings.rename ρ)).shape =
    (program.assembly settings).shape := by
  have wf' : ∀ line ∈ program.lines,
      (line.rename ρ).command.WellFormed ((program.rename ρ).definitions.map Prod.fst) := by
    intro line hl
    have hl' : line.rename ρ ∈ (program.rename ρ).lines := by
      rw [accepted.lines_rename]
      exact List.mem_map_of_mem hl
    exact (accepted'.line_legal hl').2.2
  rw [assembly, assembly, Code.shape_append, Code.shape_append, accepted.lines_rename,
    preamble, preamble, Code.shape_append, Code.shape_append]
  exact congrArg (_ ++ ·)
    (Line.shape_codeOf 0 0 (fun line hl => (accepted.line_legal hl).2.2) wf')

/-- New names that leave a program acceptable tell apart what it knows. -/
lemma rename_injOn :
    Set.InjOn (Referent.rename ρ) { referent | program.Knows settings referent } := by
  -- The new marks and the new unit names are those of the renamed program, which has none twice.
  have marks : ((Line.marksOf settings.inlineLocals 0 program.lines).map (Mark.rename ρ)).Nodup := by
    rw [← Line.marksOf_rename, ← accepted.lines_rename]
    exact Line.nodup_marksOf accepted'.nodup_starts accepted'.nodup_declarations
  have units : ((program.map SourceUnit.name).map ρ.unit).Nodup := by
    have distinct := accepted'.unitsDistinct
    rw [rename, List.map_map] at distinct
    rw [List.map_map]
    exact distinct
  intro referent known referent' known' e
  cases referent with
  | reserved text =>
    cases referent' with
    | reserved => exact e
    | _ => cases e
  | label mark =>
    cases referent' with
    | label mark' =>
      exact congrArg _ (List.inj_on_of_nodup_map marks known known' (Referent.label.inj e))
    | _ => cases e
  | static unit index =>
    cases referent' with
    | static unit' index' =>
      obtain ⟨same, rfl⟩ := Referent.static.inj e
      obtain ⟨source, hs, rfl, -⟩ := mem_statics_iff.mp known
      obtain ⟨source', hs', rfl, -⟩ := mem_statics_iff.mp known'
      rw [List.inj_on_of_nodup_map units (List.mem_map_of_mem hs) (List.mem_map_of_mem hs') same]
    | _ => cases e

end Accepted

/-- A name in the code of a program and the one that takes its place under new names. -/
def Exchanges (settings : Settings) (program : Program) (ρ : Renaming) (name name' : String) : Prop :=
  ∃ referent, program.Knows settings referent ∧ referent.name = name ∧
    (referent.rename ρ).name = name'

namespace Accepted

variable (accepted : program.Accepted settings)
  (accepted' : (program.rename ρ).Accepted (settings.rename ρ))

include accepted accepted'

/-- Each name is exchanged for one name, and from one name. -/
lemma biUnique_exchanges : Relator.BiUnique (program.Exchanges settings ρ) := by
  constructor
  · rintro _ _ _ ⟨referent, known, rfl, e⟩ ⟨referent', known', rfl, rfl⟩
    have same := accepted'.name_injOn (accepted.knows_rename known) (accepted.knows_rename known') e
    rw [accepted.rename_injOn accepted' known known' same]
  · rintro _ _ _ ⟨referent, known, rfl, rfl⟩ ⟨referent', known', e, rfl⟩
    rw [accepted.name_injOn known known' e.symm]

/-- No name of the platform is exchanged. -/
lemma free_of_exchanges (name name' : String) (h : program.Exchanges settings ρ name name') :
    predefined? name = none ∧ predefined? name' = none := by
  obtain ⟨referent, known, rfl, rfl⟩ := h
  exact ⟨Referent.predefined?_name (accepted.proper_of_knows known),
    Referent.predefined?_name (accepted'.proper_of_knows (accepted.knows_rename known))⟩

/-- Under new names the code of a program differs only in its names. -/
lemma alike_rename : Code.Alike (program.Exchanges settings ρ) (program.assembly settings)
    ((program.rename ρ).assembly (settings.rename ρ)) := by
  apply Code.alike_of_shape (accepted.shape_rename accepted').symm
  · rw [accepted.labels_assembly, accepted'.labels_assembly, accepted.lines_rename,
      Line.marksOf_rename, List.map_map]
    apply List.rel_append
    · rw [List.forall₂_same]
      intro text reserved
      exact ⟨.reserved text, reserved, rfl, rfl⟩
    · rw [List.forall₂_map_left_iff, List.forall₂_map_right_iff]
      exact List.forall₂_same.mpr fun mark set => ⟨.label mark, set, rfl, rfl⟩
  · rw [accepted.symbols_assembly, accepted'.symbols_assembly,
      accepted.referents_rename accepted', List.map_map, List.forall₂_map_left_iff,
      List.forall₂_map_right_iff, List.forall₂_same]
    intro referent hr
    exact ⟨referent, accepted.knows_of_mem_referents hr, rfl, rfl⟩

end Accepted

/-- If a program and the same program under other names are both compiled and the code of one fits program
memory, both are loaded to the same words. It is not assumed that new names differ where the old ones do:
a renaming that merges two names of the program leaves nothing that is compiled. -/
theorem compiled_rom_rename {compiled compiled' : Compiled}
    (h : compile settings program = .ok compiled)
    (h' : compile (settings.rename ρ) (program.rename ρ) = .ok compiled')
    (fits : compiled.code.size ≤ romSize) :
    ∃ image image', Image.ofCode compiled.code = .ok image ∧
      Image.ofCode compiled'.code = .ok image' ∧ image'.rom = image.rom := by
  have accepted := Accepted.of_compile h
  have accepted' := Accepted.of_compile h'
  rw [compile_code h] at fits ⊢
  rw [compile_code h']
  have alike := accepted.alike_rename accepted'
  obtain ⟨image, loaded⟩ := accepted.exists_loaded fits
  obtain ⟨image', loaded'⟩ := accepted'.exists_loaded (alike.size_eq ▸ fits)
  refine ⟨image, image', loaded.loads, loaded'.loads, ?_⟩
  exact Image.rom_eq_of_alike (accepted.biUnique_exchanges accepted')
    (accepted.free_of_exchanges accepted') alike loaded.loads loaded'.loads

/-- Two units that use static variables of the same index and functions that declare the same label. -/
def doubles : Program :=
  [⟨"Main", [.function "main" 0, .label "LOOP", .push .statics 0, .call "help" 1, .ifGoto "LOOP",
      .ret]⟩,
    ⟨"Lib", [.function "help" 3, .push .arguments 0, .goto "LOOP", .label "LOOP", .pop .statics 0,
      .push .statics 1, .ret]⟩]

/-- New names that swap the units, and under which the entry of one function has the label that the entry
of the other one had. -/
def masquerade : Renaming where
  unit name := if name = "Main" then "Lib" else "Main"
  function name := if name = "main" then "Main.help" else "main"
  label function name := function ++ ":" ++ name

/-- The doubles are loaded to the same words under the new names, though the code is another. -/
theorem doubles_rom_masquerade :
    ∃ compiled compiled' image image', compile ⟨"main", 256, 2⟩ doubles = .ok compiled ∧
      compile (Settings.rename masquerade ⟨"main", 256, 2⟩) (doubles.rename masquerade) = .ok compiled' ∧
      compiled.code.size ≤ romSize ∧ compiled'.code ≠ compiled.code ∧
      Image.ofCode compiled.code = .ok image ∧ Image.ofCode compiled'.code = .ok image' ∧
      image'.rom = image.rom := by
  have outcome : ((compile ⟨"main", 256, 2⟩ doubles).toOption.bind fun compiled =>
      (compile (Settings.rename masquerade ⟨"main", 256, 2⟩)
        (doubles.rename masquerade)).toOption.map fun compiled' =>
          decide (compiled.code.size ≤ romSize) && decide (compiled'.code ≠ compiled.code)) =
      some true := by
    decide +kernel
  obtain ⟨compiled, h, outcome⟩ := Option.bind_eq_some_iff.mp outcome
  obtain ⟨compiled', h', outcome⟩ := Option.map_eq_some_iff.mp outcome
  rw [toOption_eq_some_iff] at h h'
  obtain ⟨fits, other⟩ : compiled.code.size ≤ romSize ∧ compiled'.code ≠ compiled.code := by
    simpa using outcome
  obtain ⟨image, image', loads, loads', same⟩ := compiled_rom_rename h h' fits
  exact ⟨compiled, compiled', image, image', h, h', fits, other, loads, loads', same⟩

end Program

end HackVM
