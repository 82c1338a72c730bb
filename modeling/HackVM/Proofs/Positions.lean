import Mathlib
import HackVM.Proofs.Acceptance
import HackVM.Proofs.Loading

/-!
# Positions in a loaded program

Every line of a program has an address, the one at which its code starts. In a loaded program the code
of each line stands at its address, and the labels that jumps and calls name stand for the addresses of
the lines that declare them: the target of a jump is declared in the same function, and the entry of a
callee is the line that starts it.
-/

namespace HackVM

namespace SourceUnit

variable {unit current : String} {commands : List Command}

/-- The scope of a line that starts a function is that function. -/
lemma function_of_mem_linesFrom {scope : Scope} {name : String} {locals : UInt16}
    (h : ⟨scope, .function name locals⟩ ∈ linesFrom unit current commands) :
    scope.function = name := by
  induction commands generalizing current with
  | nil => exact nomatch h
  | cons command rest ih =>
    rcases List.mem_cons.mp h with e | h
    · cases e
      rfl
    · exact ih h

/-- The labels declared in the body at hand are declared by the lines of its function. -/
lemma mem_declarations_of_body {name : String}
    (h : name ∈ Command.declared (Command.body commands)) :
    (⟨unit, current⟩, name) ∈ Line.declarations (linesFrom unit current commands) := by
  induction commands with
  | nil => cases h
  | cons command rest ih =>
    rw [linesFrom, Line.declarations_cons]
    cases command with
    | function => cases h
    | label other =>
      rcases List.mem_cons.mp h with rfl | h
      · exact List.mem_cons_self
      · exact .tail _ (ih h)
    | _ => exact ih h

/-- A line that jumps to a label stands in the body at hand, or the label is declared by a line of the
same function. -/
lemma mem_declarations_of_refersTo (bodies : ∀ body ∈ Command.bodies commands,
      ∀ name ∈ Command.referenced body, name ∈ Command.declared body)
    {line : Line} (h : line ∈ linesFrom unit current commands) {name : String}
    (jump : line.command.refersTo? = some name) :
    line.scope = ⟨unit, current⟩ ∧ name ∈ Command.referenced (Command.body commands) ∨
      (line.scope, name) ∈ Line.declarations (linesFrom unit current commands) := by
  induction commands generalizing current with
  | nil => exact nomatch h
  | cons command rest ih =>
    rcases List.mem_cons.mp h with rfl | h
    · left
      cases command with
      | goto | ifGoto =>
        cases jump
        exact ⟨rfl, List.mem_cons_self⟩
      | _ => exact nomatch jump
    · rw [linesFrom, Line.declarations_cons]
      cases command with
      | function name' locals =>
        -- The body at hand ends here, and the jump is in a later one.
        right
        refine List.mem_append_right _ ?_
        rcases ih (fun body hb => bodies body (.tail _ hb)) h with ⟨scope, refers⟩ | declared
        · rw [scope]
          exact mem_declarations_of_body (bodies _ List.mem_cons_self _ refers)
        · exact declared
      | _ =>
        rcases ih bodies h with ⟨scope, refers⟩ | declared
        · refine .inl ⟨scope, ?_⟩
          rw [Command.body_cons_of_not rfl, Command.referenced_cons]
          exact List.mem_append_right _ refers
        · exact .inr (List.mem_append_right _ declared)

end SourceUnit

namespace Program

variable {settings : Settings} {program : Program} {image : Image} {index : Nat} {line : Line}

/-- The functions of a program are those that its lines start. -/
lemma definitions_eq (program : Program) :
    program.definitions =
      (Line.starts program.lines).map fun scope => (scope.function, scope.unit) := by
  rw [definitions, Line.starts, lines, List.filterMap_flatMap, List.map_flatMap]
  congr 1
  funext unit
  rw [← Line.starts, SourceUnit.starts_linesFrom, List.map_map]
  rfl

/-- A function is defined in a unit exactly if a line there starts it. -/
lemma mem_definitions_iff {name unit : String} :
    (name, unit) ∈ program.definitions ↔
      ∃ locals, ⟨⟨unit, name⟩, .function name locals⟩ ∈ program.lines := by
  rw [definitions_eq, Line.starts]
  simp only [List.mem_map, List.mem_filterMap, Option.map_eq_some_iff, Prod.mk.injEq]
  constructor
  · rintro ⟨scope, ⟨⟨scope', command⟩, hl, started, hd, rfl⟩, rfl, rfl⟩
    cases command with
    | function name locals =>
      obtain ⟨unit, -, hl'⟩ := List.mem_flatMap.mp hl
      obtain rfl := SourceUnit.function_of_mem_linesFrom hl'
      exact ⟨locals, hl⟩
    | _ => cases hd
  · rintro ⟨locals, hl⟩
    exact ⟨_, ⟨_, hl, name, rfl, rfl⟩, rfl, rfl⟩

/-- The target of a jump in an acceptable program is declared in the same function. -/
lemma Accepted.mem_declarations (accepted : program.Accepted settings) (h : line ∈ program.lines)
    {name : String} (jump : line.command.refersTo? = some name) :
    (line.scope, name) ∈ Line.declarations program.lines := by
  obtain ⟨unit, hu, h⟩ := List.mem_flatMap.mp h
  have resolved : ∀ body ∈ Command.bodies unit.commands,
      ∀ name ∈ Command.referenced body, name ∈ Command.declared body :=
    fun body hb => (accepted.labels unit hu body hb).resolved
  rw [Line.declarations, lines, List.filterMap_flatMap]
  refine List.mem_flatMap.mpr ⟨unit, hu, ?_⟩
  rcases SourceUnit.mem_declarations_of_refersTo resolved h jump with ⟨-, front⟩ | declared
  · -- Nothing stands in front of the first function of a unit.
    rw [Command.body_eq_nil (accepted.starts unit hu)] at front
    cases front
  · exact declared

/-- How many return labels are handed out in front of a line. -/
def serial (program : Program) (index : Nat) : Nat :=
  ((program.lines.take index).map fun line => line.command.returnLabels).sum

/-- The address at which the code of a line starts. -/
def address (settings : Settings) (program : Program) (index : Nat) : Nat :=
  (program.preamble settings).size +
    (Line.codeOf program.definitions settings.inlineLocals 0 (program.lines.take index)).size

/-- The code of the line at an index. -/
def lineCode (settings : Settings) (program : Program) (index : Nat) (line : Line) : Code :=
  line.code program.definitions settings.inlineLocals (program.serial index)

/-- The code of a line stands between the code in front of it and the code behind it. -/
lemma assembly_eq (settings : Settings) (h : program.lines[index]? = some line) :
    program.assembly settings =
      program.preamble settings ++
        Line.codeOf program.definitions settings.inlineLocals 0 (program.lines.take index) ++
          (program.lineCode settings index line ++
            Line.codeOf program.definitions settings.inlineLocals
              (program.serial index + line.command.returnLabels)
              (program.lines.drop (index + 1))) := by
  have split : program.lines =
      program.lines.take index ++ line :: program.lines.drop (index + 1) := by
    obtain ⟨hi, e⟩ := List.getElem?_eq_some_iff.mp h
    rw [← e, List.getElem_cons_drop, List.take_append_drop]
  rw [assembly, List.append_assoc]
  conv_lhs => rw [split, Line.codeOf_append, Line.codeOf, Nat.zero_add]
  rfl

/-- The next line starts behind the code of a line. -/
lemma address_succ (settings : Settings) (h : program.lines[index]? = some line) :
    program.address settings (index + 1) =
      program.address settings index + (program.lineCode settings index line).size := by
  have split : program.lines.take (index + 1) = program.lines.take index ++ [line] := by
    rw [List.take_add_one, h]
    rfl
  rw [address, split, Line.codeOf_append, Code.size_append, ← Nat.add_assoc, Nat.zero_add]
  simp [Line.codeOf, lineCode, serial, address]

/-- A later line starts at a later address, or at the same if there is no code in between. -/
lemma monotone_address (settings : Settings) (program : Program) :
    Monotone (program.address settings) := by
  refine monotone_nat_of_le_succ fun index => ?_
  cases h : program.lines[index]? with
  | none =>
    rw [address, address, List.take_add_one, h, Option.toList_none, List.append_nil]
  | some line =>
    rw [address_succ settings h]
    exact Nat.le_add_right _ _

/-- An acceptable program and the image that its code is loaded to. -/
structure Loaded (settings : Settings) (program : Program) (image : Image) : Prop where
  accepted : program.Accepted settings
  loads : Image.ofCode (program.assembly settings) = .ok image

/-- A compiled program that is loaded. -/
lemma Loaded.of_compile {compiled : Compiled} (h : compile settings program = .ok compiled)
    (loads : Image.ofCode compiled.code = .ok image) : Loaded settings program image :=
  ⟨Accepted.of_compile h, compile_code h ▸ loads⟩

/-- The labels of an acceptable program's code are those of its marks behind reserved ones. -/
lemma Accepted.labels_assembly (accepted : program.Accepted settings) :
    (program.assembly settings).labels =
      (Bootstrap.returnLabel :: Bootstrap.halt :: Routine.allCode.labels) ++
        (Line.marksOf settings.inlineLocals 0 program.lines).map Mark.text := by
  rw [assembly, Code.labels_append, labels_preamble,
    Line.labels_codeOf fun line hl => (accepted.line_legal hl).2.2]

/-- The platform defines no label of an acceptable program's code. -/
lemma Accepted.predefined?_label (accepted : program.Accepted settings) {name : String}
    (h : name ∈ (program.assembly settings).labels) : predefined? name = none := by
  rw [accepted.labels_assembly] at h
  rcases List.mem_append.mp h with reserved | marked
  · have underscores := reserved_labels.2 name reserved
    have underscore : '_' ∈ name.toList := underscores.subset List.mem_cons_self
    exact predefined?_eq_none underscore (by decide) (by decide)
  · obtain ⟨mark, -, rfl⟩ := List.mem_map.mp marked
    have dot : '.' ∈ mark.text.toList := by
      simp [Mark.toList_text, Scope.toList_entry]
    exact predefined?_eq_none dot (by decide) (by decide)

/-- The numbers in the code of an acceptable program fit an instruction. -/
lemma Accepted.narrow_assembly (accepted : program.Accepted settings) :
    (program.assembly settings).Narrow := by
  rw [assembly, preamble, Code.narrow_append, Code.narrow_append]
  refine ⟨⟨?_, ?_⟩, Line.narrow_codeOf fun line hl => (accepted.line_legal hl).2.2⟩
  · intro value hv
    simp [Bootstrap.code, Code.callSequence, Code.loadArgumentCount, Code.storeD, Code.goto,
      Code.number, Code.symbol, Code.address, Code.assign, Code.jump] at hv
    exact hv ▸ accepted.stackBase
  · exact Code.wideNumber?_eq_none_iff.mp (by decide +kernel)

/-- An acceptable program whose code fits program memory is loaded. -/
lemma Accepted.exists_loaded (accepted : program.Accepted settings)
    (fits : (program.assembly settings).size ≤ romSize) :
    ∃ image, Loaded settings program image := by
  have sound : Image.fault? (program.assembly settings) = none :=
    (Image.fault?_eq_none_iff accepted.nodup_labels).mpr
      ⟨fits, Code.wideNumber?_eq_none_iff.mpr accepted.narrow_assembly⟩
  exact ⟨_, accepted, Image.ofCode_eq_ok_iff.mpr ⟨sound, rfl⟩⟩

namespace Loaded

/-- A loaded program holds its code. -/
lemma holds (loaded : Loaded settings program image) :
    image.Holds 0 (program.assembly settings) :=
  Image.holds_of_ofCode loaded.loads loaded.accepted.nodup_labels
    fun _ => loaded.accepted.predefined?_label

/-- A loaded program starts with the bootstrap. -/
lemma holds_bootstrap (loaded : Loaded settings program image) :
    image.Holds 0 (Bootstrap.code settings.stackBase (program.entryLabel settings)) :=
  (Image.holds_append.mp (Image.holds_append.mp loaded.holds).1).1

/-- A loaded program holds every shared routine, at the address of its entry label. -/
lemma exists_routine (loaded : Loaded settings program image) (routine : Routine) :
    ∃ entry, image.Places routine.entry entry ∧ image.Holds entry routine.code := by
  have placed : routine ∈ Routine.all := by
    cases routine with
    | compare comparison => cases comparison <;> decide
    | _ => decide
  obtain ⟨front, rest, e⟩ := List.append_of_mem placed
  have routines := (Image.holds_append.mp (Image.holds_append.mp loaded.holds).1).2
  rw [Routine.allCode, e, List.flatMap_append, List.flatMap_cons] at routines
  have holds := (Image.holds_append.mp (Image.holds_append.mp routines).2).1
  refine ⟨_, ?_, holds⟩
  cases routine with
  | compare comparison => cases comparison <;> exact holds.1
  | _ => exact holds.1

/-- The code of a line stands at its address. -/
lemma holds_line (loaded : Loaded settings program image)
    (h : program.lines[index]? = some line) :
    image.Holds (program.address settings index) (program.lineCode settings index line) := by
  have holds := loaded.holds
  rw [assembly_eq settings h, Image.holds_append, Nat.zero_add, Code.size_append] at holds
  exact (Image.holds_append.mp holds.2).1

/-- The code of a line is what its command is lowered to. -/
lemma lowers_line (loaded : Loaded settings program image)
    (h : program.lines[index]? = some line) :
    Line.Lowers program.definitions settings.inlineLocals (program.serial index) line.scope
      line.command (program.lineCode settings index line) :=
  Line.lowers_code (loaded.accepted.line_legal (List.mem_of_getElem? h)).2.2

/-- The entry label of a function stands for the line that starts it. -/
lemma places_entry (loaded : Loaded settings program image) {scope : Scope} {name : String}
    {locals : UInt16} (h : program.lines[index]? = some ⟨scope, .function name locals⟩) :
    image.Places scope.entry (program.address settings index) := by
  have holds := loaded.holds_line h
  have wf := (loaded.accepted.line_legal (List.mem_of_getElem? h)).2.2
  rw [lineCode, Line.code_function wf] at holds
  exact holds.1

/-- A label of a function stands for the line that declares it. -/
lemma places_label (loaded : Loaded settings program image) {scope : Scope} {name : String}
    (h : program.lines[index]? = some ⟨scope, .label name⟩) :
    image.Places (scope.userLabel name) (program.address settings index) := by
  have holds := loaded.holds_line h
  have wf := (loaded.accepted.line_legal (List.mem_of_getElem? h)).2.2
  rw [lineCode, Line.code_label wf] at holds
  exact holds.1

end Loaded

/-- The line that starts a function. -/
def functionIndex (program : Program) (name : String) : Nat :=
  program.lines.findIdx fun line => line.command.defines? = some name

/-- The line that declares a label of a function. -/
def labelIndex (program : Program) (scope : Scope) (name : String) : Nat :=
  program.lines.findIdx fun line => line.scope = scope ∧ line.command.declares? = some name

/-- A search for a line that exists finds a line with the property. -/
lemma exists_line_findIdx {lines : List Line} {p : Line → Prop} [DecidablePred p]
    (h : ∃ line ∈ lines, p line) : ∃ line, lines[lines.findIdx p]? = some line ∧ p line := by
  obtain ⟨line, hl, hp⟩ := h
  have found : lines.findIdx p < lines.length :=
    List.findIdx_lt_length_of_exists ⟨line, hl, decide_eq_true hp⟩
  exact ⟨_, List.getElem?_eq_getElem found, of_decide_eq_true (List.findIdx_getElem (w := found))⟩

/-- A function that is defined is started by its line. -/
lemma Accepted.line_functionIndex (accepted : program.Accepted settings) {name unit : String}
    (h : program.definitions.lookup name = some unit) :
    ∃ locals, program.lines[program.functionIndex name]? =
      some ⟨⟨unit, name⟩, .function name locals⟩ := by
  obtain ⟨locals, hl⟩ := mem_definitions_iff.mp (mem_of_lookup h)
  obtain ⟨⟨scope, command⟩, found, starts⟩ := exists_line_findIdx
    (p := fun line => line.command.defines? = some name) ⟨_, hl, rfl⟩
  cases command with
  | function name' locals' =>
    cases starts
    have hm := List.mem_of_getElem? found
    obtain ⟨source, -, hm'⟩ := List.mem_flatMap.mp hm
    have function := SourceUnit.function_of_mem_linesFrom hm'
    obtain ⟨unit', function'⟩ := scope
    cases function
    -- The other unit that starts the function is the same, since no name is defined twice.
    have defined := lookup_of_mem accepted.functionsDistinct
      (mem_definitions_iff.mpr ⟨locals', hm⟩)
    cases h.symm.trans defined
    exact ⟨locals', found⟩
  | _ => exact nomatch starts

/-- The label that a line jumps to is declared by its line. -/
lemma Accepted.line_labelIndex (accepted : program.Accepted settings) (h : line ∈ program.lines)
    {name : String} (jump : line.command.refersTo? = some name) :
    program.lines[program.labelIndex line.scope name]? = some ⟨line.scope, .label name⟩ := by
  obtain ⟨other, ho, declared⟩ := List.mem_filterMap.mp (accepted.mem_declarations h jump)
  obtain ⟨_, hd, e⟩ := Option.map_eq_some_iff.mp declared
  obtain ⟨scope_eq, rfl⟩ := Prod.mk.inj e
  obtain ⟨⟨scope, command⟩, found, sameScope, sameLabel⟩ := exists_line_findIdx
    (p := fun line' => line'.scope = line.scope ∧ line'.command.declares? = some _)
    ⟨other, ho, scope_eq, hd⟩
  cases command with
  | label name' =>
    cases sameScope
    cases sameLabel
    exact found
  | _ => exact nomatch sameLabel

end Program

/-- The symbol of a static variable, character by character. -/
lemma toList_staticSymbol (unit : String) (index : UInt16) :
    (staticSymbol unit index).toList = unit.toList ++ '.' :: (Nat.repr index.toNat).toList := by
  simp [staticSymbol, String.toList_append]

/-- No label of a function with a legal name is the symbol of a static variable: behind the first dot
one starts with a digit and the other does not. -/
lemma staticSymbol_ne_text {unit : String} {mark : Mark} (index : UInt16)
    (undotted : '.' ∉ unit.toList) (undotted' : '.' ∉ mark.scope.unit.toList)
    (legal : Name.Legal mark.scope.function) : staticSymbol unit index ≠ mark.text := by
  intro e
  have e := congrArg String.toList e
  rw [toList_staticSymbol, Mark.toList_text, Scope.toList_entry, List.append_assoc,
    List.cons_append] at e
  obtain ⟨-, tails⟩ := append_cons_inj undotted undotted' e
  cases hf : mark.scope.function.toList with
  | nil => exact legal.nonempty hf
  | cons first rest =>
    have digit : first ∈ (Nat.repr index.toNat).toList := by
      rw [tails, hf]
      exact List.mem_cons_self
    have notDigit := legal.first first (by rw [hf]; rfl)
    exact absurd (isDigit_of_mem_repr digit) (by simp [notDigit])

namespace Program

variable {settings : Settings} {program : Program} {image : Image}

/-- No label of an acceptable program's code is the symbol of a static variable. -/
lemma Accepted.staticSymbol_notMem_labels (accepted : program.Accepted settings) {unit : String}
    (legal : SourceUnit.LegalName unit) (index : UInt16) :
    staticSymbol unit index ∉ (program.assembly settings).labels := by
  rw [accepted.labels_assembly]
  intro h
  rcases List.mem_append.mp h with reserved | marked
  · have underscores := reserved_labels.2 _ reserved
    rw [toList_staticSymbol] at underscores
    exact legal.unreserved_append _ underscores
  · obtain ⟨mark, hm, e⟩ := List.mem_map.mp marked
    obtain ⟨unit', function, -⟩ := accepted.clean_of_mem_marksOf hm
    exact staticSymbol_ne_text index legal.undotted unit'.undotted function e.symm

/-- The symbols that a line loads are loaded by the code of the program. -/
lemma mem_symbols_assembly (settings : Settings) {index : Nat} {line : Line}
    (h : program.lines[index]? = some line) {name : String}
    (hs : name ∈ (program.lineCode settings index line).symbols) :
    name ∈ (program.assembly settings).symbols := by
  rw [assembly_eq settings h]
  simp only [Code.symbols, List.filterMap_append, List.mem_append] at hs ⊢
  exact .inr (.inl hs)

end Program

/-- The cell that loading gave the variable with a symbol. -/
def Image.cellOf (image : Image) (symbol : String) : Nat :=
  (image.variableCell? symbol).getD 0

namespace Program

variable {settings : Settings} {program : Program} {image : Image}

/-- The symbol of a static variable that a line loads stands for the cell of the variable. -/
lemma Loaded.value_static (loaded : Loaded settings program image) {position : Nat} {line : Line}
    (h : program.lines[position]? = some line) {unit : String} {index : UInt16}
    (legal : SourceUnit.LegalName unit)
    (used : staticSymbol unit index ∈ (program.lineCode settings position line).symbols) :
    image.value (.symbol (staticSymbol unit index)) =
      word (image.cellOf (staticSymbol unit index)) := by
  obtain ⟨-, rfl⟩ := Image.ofCode_eq_ok_iff.mp loaded.loads
  set code := program.assembly settings
  set labels := code.labelTable 0 with labels_eq
  have dot : '.' ∈ (staticSymbol unit index).toList := by simp [toList_staticSymbol]
  have unlisted : labels.lookup (staticSymbol unit index) = none := by
    rw [lookup_eq_none_iff_notMem, labels_eq, Code.map_fst_labelTable]
    exact loaded.accepted.staticSymbol_notMem_labels legal index
  -- The symbol is neither predefined nor a label, so loading takes it for a variable.
  have unfixed : Image.fixed? labels (staticSymbol unit index) = none := by
    rw [Image.fixed?, predefined?_eq_none dot (by decide) (by decide), unlisted]
    rfl
  have listed : staticSymbol unit index ∈ Image.variablesOf labels code := by
    rw [Image.variablesOf, Image.distinct_eq_noted, mem_noted, List.mem_filter, unfixed]
    exact .inr ⟨mem_symbols_assembly settings h used, rfl⟩
  have cell : (Image.variablesOf labels code).idxOf? (staticSymbol unit index) =
      some ((Image.variablesOf labels code).idxOf (staticSymbol unit index)) :=
    List.findIdx?_eq_some_iff_findIdx_eq.mpr ⟨List.idxOf_lt_length_of_mem listed, rfl⟩
  simp [Image.cellOf, Image.variableCell?, cell, Image.value, Image.operandValue,
    Image.symbolValue, unfixed, word]

end Program

end HackVM
