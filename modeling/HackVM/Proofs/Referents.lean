import Mathlib
import HackVM.Proofs.Positions

/-!
# What names in code stand for

Code mentions a name either as a label that it declares or as a symbol that it loads. A `Referent` says
what a name stands for: a label of the bootstrap or of a shared routine, a label in the code of the
program's commands, or a static variable. The names of proper referents tell them apart, and a program
that is acceptable mentions only referents that it knows: reserved labels, labels that its own code
declares, and static variables that it uses.
-/

namespace HackVM

/-- What a name in the code of a program stands for. -/
inductive Referent where
  | reserved (text : String)
  | label (mark : Mark)
  | static (unit : String) (index : UInt16)
deriving DecidableEq, Repr

/-- A numeral and what stands before the joint in front of it can be told from the whole, whatever the
joint joins: behind the last joint there are only digits. -/
lemma append_repr_inj {joint : Char} (h : joint.isDigit = false) {front front' : List Char}
    {number number' : Nat}
    (e : front ++ joint :: (Nat.repr number).toList = front' ++ joint :: (Nat.repr number').toList) :
    front = front' ∧ number = number' := by
  have notMem : ∀ number : Nat, joint ∉ (Nat.repr number).toList.reverse := by
    intro number hm
    exact absurd (isDigit_of_mem_repr (List.mem_reverse.mp hm)) (by simp [h])
  have e := congrArg List.reverse e
  simp only [List.reverse_append, List.reverse_cons, List.append_assoc, List.singleton_append] at e
  obtain ⟨numbers, fronts⟩ := append_cons_inj (notMem _) (notMem _) e
  exact ⟨List.reverse_injective fronts,
    Nat.repr_injective (String.toList_injective (List.reverse_injective numbers))⟩

/-- The symbols of static variables tell them apart, whatever the names of their units are. -/
lemma staticSymbol_inj {unit unit' : String} {index index' : UInt16}
    (e : staticSymbol unit index = staticSymbol unit' index') : unit = unit' ∧ index = index' := by
  have e := congrArg String.toList e
  rw [toList_staticSymbol, toList_staticSymbol] at e
  obtain ⟨units, indices⟩ := append_repr_inj (by decide) e
  exact ⟨String.toList_injective units, UInt16.toNat_inj.mp indices⟩

namespace Referent

/-- The name of a referent. -/
def name : Referent → String
  | .reserved text => text
  | .label mark => mark.text
  | .static unit index => staticSymbol unit index

/-- The static variable that a referent is. -/
def static? : Referent → Option (String × UInt16)
  | .static unit index => some (unit, index)
  | _ => none

/-- Reserved labels start with two underscores, and everything else is made of legal names. -/
def Proper : Referent → Prop
  | .reserved text => ['_', '_'] <+: text.toList
  | .label mark =>
    SourceUnit.LegalName mark.scope.unit ∧ Name.Legal mark.scope.function ∧ mark.Clean
  | .static unit _ => SourceUnit.LegalName unit

lemma unreserved_static {unit : String} (legal : SourceUnit.LegalName unit) (index : UInt16) :
    ¬ ['_', '_'] <+: (staticSymbol unit index).toList := by
  rw [toList_staticSymbol]
  exact legal.unreserved_append _

/-- Proper referents with the same name are the same. -/
lemma name_inj {referent referent' : Referent} (h : referent.Proper) (h' : referent'.Proper)
    (e : referent.name = referent'.name) : referent = referent' := by
  cases referent with
  | reserved text =>
    cases referent' with
    | reserved text' => exact congrArg _ e
    | label mark =>
      have e : text = mark.text := e
      exact absurd (e ▸ h) (Mark.text_unreserved h'.1)
    | static unit index =>
      have e : text = staticSymbol unit index := e
      exact absurd (e ▸ h) (unreserved_static h' index)
  | label mark =>
    cases referent' with
    | reserved text =>
      have e : mark.text = text := e
      exact absurd (e ▸ h') (Mark.text_unreserved h.1)
    | label mark' => exact congrArg _ (Mark.text_inj h.2.2 h'.2.2 e)
    | static unit index =>
      exact absurd e.symm (staticSymbol_ne_text index h'.undotted h.1.undotted h.2.1)
  | static unit index =>
    cases referent' with
    | reserved text =>
      have e : staticSymbol unit index = text := e
      exact absurd (e ▸ h') (unreserved_static h index)
    | label mark => exact absurd e (staticSymbol_ne_text index h.undotted h'.1.undotted h'.2.1)
    | static unit' index' =>
      obtain ⟨rfl, rfl⟩ := staticSymbol_inj e
      rfl

/-- The name of a proper referent is no word of letters and digits. -/
lemma exists_joint {referent : Referent} (h : referent.Proper) :
    ∃ c ∈ referent.name.toList, c = '_' ∨ c = '.' := by
  cases referent with
  | reserved text => exact ⟨'_', List.IsPrefix.subset h List.mem_cons_self, .inl rfl⟩
  | label mark => exact ⟨'.', by simp [name, Mark.toList_text, Scope.toList_entry], .inr rfl⟩
  | static unit index => exact ⟨'.', by simp [name, toList_staticSymbol], .inr rfl⟩

/-- The platform gives the name of a proper referent no meaning of its own. -/
lemma predefined?_name {referent : Referent} (h : referent.Proper) :
    predefined? referent.name = none := by
  obtain ⟨c, hc, rfl | rfl⟩ := exists_joint h
  · exact predefined?_eq_none hc (by decide) (by decide)
  · exact predefined?_eq_none hc (by decide) (by decide)

end Referent

/-- Whether the instruction reads or writes the memory cell that the address register points to, and
does not jump there. -/
def Instruction.accessesMemory : Instruction → Bool
  | .compute dest comp jump => (dest.m || comp.readsMemory) && decide (jump = .never)
  | _ => false

namespace Code

/-- The symbols that code loads, each with whether the next instruction takes it for the address of a
memory cell. -/
def uses : Code → List (String × Bool)
  | [] => []
  | .load (.symbol name) :: rest =>
    (name, rest.head?.any Instruction.accessesMemory) :: uses rest
  | .load (.constant _) :: rest | .load (.register _) :: rest | .label _ :: rest
  | .compute .. :: rest => uses rest

lemma map_fst_uses (code : Code) : code.uses.map Prod.fst = code.symbols := by
  fun_induction uses code with
  | case1 => rfl
  | case2 name rest ih => exact congrArg _ ih
  | case3 value rest ih => exact ih
  | case4 cell rest ih => exact ih
  | case5 name rest ih => exact ih
  | case6 dest comp jump rest ih => exact ih

/-- Code that ends with something else than a load, so that what follows cannot use its last symbol. -/
def Sealed (code : Code) : Prop :=
  ∀ operand, .load operand ∉ code.getLast?

lemma sealed_nil : Sealed [] := nofun

lemma Sealed.append {first second : Code} (h : first.Sealed) (h' : second.Sealed) :
    Sealed (first ++ second) := by
  intro operand hl
  rw [List.getLast?_append] at hl
  cases e : second.getLast? with
  | none =>
    rw [e] at hl
    exact h operand hl
  | some last =>
    rw [e] at hl
    exact h' operand (e.trans hl)

lemma uses_append {first second : Code} (h : first.Sealed) :
    uses (first ++ second) = first.uses ++ second.uses := by
  induction first with
  | nil => rfl
  | cons instruction rest ih =>
    cases rest with
    | nil =>
      cases instruction with
      | load operand => exact absurd rfl (h operand)
      | _ => rfl
    | cons next more =>
      have ih := ih fun operand hl => h operand hl
      cases instruction with
      | load operand =>
        cases operand with
        | symbol name => exact congrArg _ ih
        | _ => exact ih
      | _ => exact ih

lemma sealed_replicate_pushComp (comp : Comp) (count : Nat) :
    Sealed (List.replicate count (pushComp comp)).flatten := by
  induction count with
  | zero => exact sealed_nil
  | succ count ih =>
    rw [List.replicate_succ, List.flatten_cons]
    have pushing : (pushComp comp).Sealed := by
      intro operand h
      cases h
    exact pushing.append ih

lemma uses_replicate_pushComp (comp : Comp) (count : Nat) :
    uses (List.replicate count (pushComp comp)).flatten = [] := by
  induction count with
  | zero => rfl
  | succ count ih =>
    have pushing : (pushComp comp).Sealed := by
      intro operand h
      cases h
    rw [List.replicate_succ, List.flatten_cons, uses_append pushing, ih]
    rfl

end Code

namespace Location

/-- The symbol of a place that has one, used as the address of a memory cell. -/
def uses : Location → List (String × Bool)
  | .variable symbol => [(symbol, true)]
  | _ => []

lemma uses_pushCode (location : Location) : location.pushCode.uses = location.uses := by
  cases location with
  | immediate value | indirect base offset =>
    rw [pushCode]
    split_ifs <;> rfl
  | _ => rfl

lemma uses_popCode {location : Location} {code : Code} (place : location.popCode? = some code) :
    code.uses = location.uses := by
  cases location with
  | immediate value => cases place
  | indirect base offset =>
    cases place
    rw [addressCode]
    split_ifs <;> rfl
  | _ =>
    cases place
    rfl

end Location

lemma Segment.uses_of_resolve {segment : Segment} {unit : String} {index : UInt16}
    {location : Location} (h : segment.resolve unit index = .ok location) :
    location.uses = if segment = .statics then [(staticSymbol unit index, true)] else [] := by
  have fits := (resolve_isOk_iff segment unit).mp ⟨location, h⟩
  rw [resolve.eq_def, if_neg (UInt16.not_lt.mpr fits)] at h
  cases segment <;> cases h <;> rfl

namespace Line

/-- What the symbols that the code of a line loads stand for, in order. -/
def referents (functions : List (String × String)) (inlineMax : UInt16) (returns : Nat)
    (line : Line) : List Referent :=
  match line.command with
  | .push .statics index | .pop .statics index => [.static line.scope.unit index]
  | .operate (.compare comparison) =>
    [.label (.back line.scope comparison.tag (returns + 1)),
      .reserved (Routine.entry (.compare comparison))]
  | .goto name | .ifGoto name => [.label (.user line.scope name)]
  | .function _ locals => if locals ≤ inlineMax then [] else [.label (.loop line.scope)]
  | .call name _ =>
    [.label (.entry ⟨(functions.lookup name).getD "", name⟩),
      .label (.back line.scope "ret" (returns + 1)), .reserved (Routine.entry .call)]
  | .ret => [.reserved (Routine.entry .return)]
  | _ => []

lemma referents_function (functions : List (String × String)) (inlineMax : UInt16) (returns : Nat)
    (scope : Scope) (name : String) (locals : UInt16) :
    referents functions inlineMax returns ⟨scope, .function name locals⟩ =
      if locals ≤ inlineMax then [] else [.label (.loop scope)] := rfl

lemma referents_call (functions : List (String × String)) (inlineMax : UInt16) (returns : Nat)
    (scope : Scope) (name : String) (arguments : UInt16) :
    referents functions inlineMax returns ⟨scope, .call name arguments⟩ =
      [.label (.entry ⟨(functions.lookup name).getD "", name⟩),
        .label (.back scope "ret" (returns + 1)), .reserved (Routine.entry .call)] := rfl

/-- What the symbols that the code of lines loads stand for. -/
def referentsOf (functions : List (String × String)) (inlineMax : UInt16) :
    (returns : Nat) → List Line → List Referent
  | _, [] => []
  | returns, line :: rest =>
    line.referents functions inlineMax returns ++
      referentsOf functions inlineMax (returns + line.command.returnLabels) rest

end Line

/-- How the name of a referent is used: static variables are the only ones that stand for memory. -/
def Referent.use (referent : Referent) : String × Bool :=
  (referent.name, referent.static?.isSome)

namespace Line

variable {functions : List (String × String)} {inlineMax : UInt16} {returns : Nat} {scope : Scope}
  {command : Command} {code : Code}

/-- No code of a line ends with a load. -/
lemma Lowers.sealed (h : Lowers functions inlineMax returns scope command code) :
    code.Sealed := by
  cases h with
  | @push _ _ location =>
    intro operand h
    cases location with
    | immediate value =>
      rw [Location.pushCode] at h
      split_ifs at h <;> cases h
    | indirect base offset =>
      rw [Location.pushCode] at h
      split_ifs at h <;> cases h
    | _ => cases h
  | @pop _ _ location _ _ place =>
    intro operand h
    cases location with
    | immediate => cases place
    | indirect base offset =>
      cases place
      rw [Location.addressCode] at h
      split_ifs at h <;> cases h
    | _ =>
      cases place
      cases h
  | operate operation =>
    intro operand h
    cases operation <;> cases h
  | @function _ locals =>
    have entry : Code.Sealed [.label scope.entry] := by
      intro operand h
      cases h
    have prologue : (scope.prologue locals inlineMax).Sealed := by
      rw [Scope.prologue]
      split_ifs
      · exact Code.sealed_replicate_pushComp _ _
      · intro operand h
        cases h
    exact entry.append prologue
  | call =>
    intro operand h
    rw [Code.callSequence, Code.loadArgumentCount] at h
    split_ifs at h <;> cases h
  | _ =>
    intro operand h
    cases h

/-- The symbols in the code of a line are the names of its referents, used as such. -/
lemma Lowers.uses (h : Lowers functions inlineMax returns scope command code) :
    code.uses = (referents functions inlineMax returns ⟨scope, command⟩).map Referent.use := by
  cases h with
  | @push segment _ location resolved =>
    rw [Location.uses_pushCode, Segment.uses_of_resolve resolved]
    cases segment <;> rfl
  | @pop segment _ location _ resolved place =>
    rw [Location.uses_popCode place, Segment.uses_of_resolve resolved]
    cases segment <;> rfl
  | operate operation => cases operation <;> rfl
  | @function _ locals =>
    rw [Scope.prologue, referents_function]
    by_cases inlined : locals ≤ inlineMax
    · simp only [if_pos inlined, Code.uses, Code.uses_replicate_pushComp, List.map_nil]
    · simp only [if_neg inlined]
      rfl
  | @call name unit _ _ defined =>
    rw [referents_call, defined, Code.callSequence, Code.loadArgumentCount]
    split_ifs <;> rfl
  | _ => rfl

lemma uses_codeOf {lines : List Line}
    (wf : ∀ line ∈ lines, line.command.WellFormed (functions.map Prod.fst)) :
    (codeOf functions inlineMax returns lines).uses =
      (referentsOf functions inlineMax returns lines).map Referent.use := by
  induction lines generalizing returns with
  | nil => rfl
  | cons line rest ih =>
    have lowers : Lowers functions inlineMax returns line.scope line.command _ :=
      lowers_code (wf line List.mem_cons_self)
    rw [codeOf, referentsOf, Code.uses_append lowers.sealed, List.map_append,
      ih fun line hl => wf line (.tail _ hl), lowers.uses]

/-- The static variables among the referents of lines are those that the lines use. -/
lemma static?_referentsOf (lines : List Line) :
    (referentsOf functions inlineMax returns lines).filterMap Referent.static? =
      lines.filterMap Line.static? := by
  induction lines generalizing returns with
  | nil => rfl
  | cons line rest ih =>
    have own : (line.referents functions inlineMax returns).filterMap Referent.static? =
        line.static?.toList := by
      obtain ⟨scope, command⟩ := line
      cases command with
      | push segment index | pop segment index => cases segment <;> rfl
      | operate operation => cases operation <;> rfl
      | function name locals =>
        rw [referents_function]
        split_ifs <;> rfl
      | _ => rfl
    rw [referentsOf, List.filterMap_append, ih, own, List.filterMap_cons]
    cases line.static? <;> rfl

/-- What lines can mention: the entries of shared routines, labels that they set or jump to, entries of
functions that they call, and static variables that they use. -/
inductive Mentions (functions : List (String × String)) (inlineMax : UInt16) (returns : Nat)
    (lines : List Line) : Referent → Prop where
  | routine (routine : Routine) :
      Mentions functions inlineMax returns lines (.reserved routine.entry)
  | mark {mark : Mark} (set : mark ∈ marksOf inlineMax returns lines) :
      Mentions functions inlineMax returns lines (.label mark)
  | jump {line : Line} {name : String} (mem : line ∈ lines)
      (refers : line.command.refersTo? = some name) :
      Mentions functions inlineMax returns lines (.label (.user line.scope name))
  | call {line : Line} {name : String} {arguments : UInt16} (mem : line ∈ lines)
      (calls : line.command = .call name arguments) :
      Mentions functions inlineMax returns lines
        (.label (.entry ⟨(functions.lookup name).getD "", name⟩))
  | static {unit : String} {index : UInt16} (used : (unit, index) ∈ lines.filterMap Line.static?) :
      Mentions functions inlineMax returns lines (.static unit index)

lemma mentions_own {line : Line} {rest : List Line} {referent : Referent}
    (h : referent ∈ line.referents functions inlineMax returns) :
    Mentions functions inlineMax returns (line :: rest) referent := by
  have here : line ∈ line :: rest := List.mem_cons_self
  have set : ∀ mark ∈ line.marks inlineMax returns,
      Mentions functions inlineMax returns (line :: rest) (.label mark) :=
    fun mark hm => .mark (List.mem_append_left _ hm)
  have used : ∀ cell ∈ line.static?,
      Mentions functions inlineMax returns (line :: rest) (.static cell.1 cell.2) :=
    fun cell hc => .static (List.mem_filterMap.mpr ⟨line, here, hc⟩)
  obtain ⟨scope, command⟩ := line
  cases command with
  | push segment index | pop segment index =>
    cases segment with
    | statics =>
      cases List.mem_singleton.mp h
      exact used (scope.unit, index) rfl
    | _ => cases h
  | operate operation =>
    cases operation with
    | compare comparison =>
      rcases List.mem_cons.mp h with rfl | h
      · exact set _ List.mem_cons_self
      · cases List.mem_singleton.mp h
        exact .routine _
    | _ => cases h
  | label name => cases h
  | goto name | ifGoto name =>
    cases List.mem_singleton.mp h
    exact .jump here rfl
  | function name locals =>
    rw [referents_function] at h
    split_ifs at h with inlined
    · cases h
    · cases List.mem_singleton.mp h
      exact set _ (by simp [marks, inlined])
  | call name arguments =>
    rw [referents_call] at h
    rcases List.mem_cons.mp h with rfl | h
    · exact .call here rfl
    · rcases List.mem_cons.mp h with rfl | h
      · exact set _ List.mem_cons_self
      · cases List.mem_singleton.mp h
        exact .routine _
  | ret =>
    cases List.mem_singleton.mp h
    exact .routine _

/-- Everything that the code of lines refers to is mentioned by one of them. -/
lemma mentions_of_mem_referentsOf {lines : List Line} {referent : Referent}
    (h : referent ∈ referentsOf functions inlineMax returns lines) :
    Mentions functions inlineMax returns lines referent := by
  induction lines generalizing returns with
  | nil => cases h
  | cons line rest ih =>
    rcases List.mem_append.mp h with own | later
    · exact mentions_own own
    · cases ih later with
      | routine routine => exact .routine routine
      | mark set => exact .mark (List.mem_append_right _ set)
      | jump mem refers => exact .jump (.tail _ mem) refers
      | call mem calls => exact .call (.tail _ mem) calls
      | static used => exact .static (((List.sublist_cons_self line rest).filterMap _).mem used)

/-- A label that lines declare is set by them. -/
lemma user_mem_marksOf {lines : List Line} {name : String}
    (h : (scope, name) ∈ declarations lines) :
    .user scope name ∈ marksOf inlineMax returns lines := by
  induction lines generalizing returns with
  | nil => cases h
  | cons line rest ih =>
    rw [declarations_cons] at h
    rcases List.mem_append.mp h with own | later
    · obtain ⟨scope', command⟩ := line
      cases command with
      | label name' =>
        cases List.mem_singleton.mp own
        exact List.mem_cons_self
      | _ => cases own
    · exact List.mem_append_right _ (ih later)

/-- The entry of a function that lines start is set by them. -/
lemma entry_mem_marksOf {lines : List Line} (h : scope ∈ starts lines) :
    .entry scope ∈ marksOf inlineMax returns lines := by
  induction lines generalizing returns with
  | nil => cases h
  | cons line rest ih =>
    rw [starts_cons] at h
    rcases List.mem_append.mp h with own | later
    · obtain ⟨scope', command⟩ := line
      cases command with
      | function name locals =>
        cases List.mem_singleton.mp own
        exact List.mem_cons_self
      | _ => cases own
    · exact List.mem_append_right _ (ih later)

end Line

/-- The labels that stand in front of the first command of every program. -/
def reservedLabels : List String :=
  Bootstrap.returnLabel :: Bootstrap.halt :: Routine.allCode.labels

lemma Routine.entry_mem_reservedLabels (routine : Routine) : routine.entry ∈ reservedLabels := by
  have all : ∀ routine ∈ Routine.all, routine.entry ∈ reservedLabels := by decide +kernel
  refine all routine ?_
  cases routine with
  | compare comparison => cases comparison <;> decide
  | _ => decide

/-- The shared routines load only their own labels, and none of them for the address of a memory cell. -/
lemma Routine.uses_allCode :
    Routine.allCode.uses = Routine.allCode.symbols.map (·, false) ∧
      ∀ name ∈ Routine.allCode.symbols, name ∈ reservedLabels := by
  decide +kernel

namespace Program

variable {settings : Settings} {program : Program}

/-- What the symbols that the code of a program loads stand for, in order. -/
def referents (settings : Settings) (program : Program) : List Referent :=
  .label (.entry ⟨(program.definitions.lookup settings.entryPoint).getD "", settings.entryPoint⟩) ::
    .reserved Bootstrap.returnLabel :: .reserved (Routine.entry .call) ::
    .reserved Bootstrap.halt :: (Routine.allCode.symbols.map .reserved ++
      Line.referentsOf program.definitions settings.inlineLocals 0 program.lines)

/-- What the code of a program may mention: reserved labels, the labels that the program's own code sets,
and the static variables that it uses. -/
def Knows (settings : Settings) (program : Program) : Referent → Prop
  | .reserved text => text ∈ reservedLabels
  | .label mark => mark ∈ Line.marksOf settings.inlineLocals 0 program.lines
  | .static unit index => (unit, index) ∈ program.statics

lemma statics_eq (program : Program) :
    program.statics = program.lines.filterMap Line.static? := by
  rw [statics, lines, List.filterMap_flatMap]
  congr 1
  funext unit
  exact (SourceUnit.statics_linesFrom _ _ _).symm

/-- A unit of the program pushes or pops its static variable with an index. -/
def UsesStatic (program : Program) (unit : String) (index : UInt16) : Prop :=
  ∃ source ∈ program, source.name = unit ∧
    (.push .statics index ∈ source.commands ∨ .pop .statics index ∈ source.commands)

lemma mem_statics_iff {unit : String} {index : UInt16} :
    (unit, index) ∈ program.statics ↔ program.UsesStatic unit index := by
  have static_iff : ∀ command : Command, command.static? = some index ↔
      command = .push .statics index ∨ command = .pop .statics index := by
    intro command
    cases command with
    | push segment _ | pop segment _ => cases segment <;> simp [Command.static?]
    | _ => simp [Command.static?]
  simp only [statics, List.mem_flatMap, List.mem_map, List.mem_filterMap, Prod.mk.injEq]
  constructor
  · rintro ⟨source, hs, _, ⟨command, hc, static⟩, rfl, rfl⟩
    rcases (static_iff command).mp static with rfl | rfl
    · exact ⟨source, hs, rfl, .inl hc⟩
    · exact ⟨source, hs, rfl, .inr hc⟩
  · rintro ⟨source, hs, rfl, hc | hc⟩
    · exact ⟨source, hs, index, ⟨_, hc, rfl⟩, rfl, rfl⟩
    · exact ⟨source, hs, index, ⟨_, hc, rfl⟩, rfl, rfl⟩

lemma static?_referents (settings : Settings) (program : Program) :
    (program.referents settings).filterMap Referent.static? = program.statics := by
  have reserved : ∀ names : List String,
      (names.map Referent.reserved).filterMap Referent.static? = [] := by
    intro names
    rw [List.filterMap_map]
    exact List.filterMap_none _
  rw [referents]
  simp only [List.filterMap_cons, Referent.static?, List.filterMap_append]
  rw [reserved, List.nil_append, Line.static?_referentsOf, statics_eq]

namespace Accepted

variable {referent : Referent}

lemma sealed_preamble : (program.preamble settings).Sealed := by
  intro operand h
  cases h

/-- The symbols in the code of an acceptable program are the names of its referents, used as such. -/
lemma uses_assembly (accepted : program.Accepted settings) :
    (program.assembly settings).uses = (program.referents settings).map Referent.use := by
  obtain ⟨unit, hu⟩ := accepted.exists_entry
  have wf : ∀ line ∈ program.lines,
      line.command.WellFormed (program.definitions.map Prod.fst) :=
    fun line hl => (accepted.line_legal hl).2.2
  have bootstrap : Code.Sealed
      (Bootstrap.code settings.stackBase (program.entryLabel settings)) := by
    intro operand h
    cases h
  rw [assembly, Code.uses_append sealed_preamble, preamble, Code.uses_append bootstrap,
    Routine.uses_allCode.1, Line.uses_codeOf wf, referents, entryLabel, hu]
  simp only [List.map_cons, List.map_append, List.map_map, List.append_assoc]
  rfl

lemma symbols_assembly (accepted : program.Accepted settings) :
    (program.assembly settings).symbols = (program.referents settings).map Referent.name := by
  rw [← Code.map_fst_uses, accepted.uses_assembly, List.map_map]
  rfl

/-- Everything that the code of an acceptable program refers to is known: what it jumps to or calls is
declared. -/
lemma knows_of_mem_referents (accepted : program.Accepted settings)
    (h : referent ∈ program.referents settings) : program.Knows settings referent := by
  have entry : ∀ name ∈ program.functionNames,
      program.Knows settings (.label (.entry ⟨(program.definitions.lookup name).getD "", name⟩)) := by
    intro name hn
    cases hu : program.definitions.lookup name with
    | none => exact absurd hn (lookup_eq_none_iff_notMem.mp hu)
    | some unit =>
      have defined := mem_of_lookup hu
      rw [definitions_eq] at defined
      obtain ⟨scope, started, e⟩ := List.mem_map.mp defined
      cases e
      exact Line.entry_mem_marksOf started
  rw [referents] at h
  simp only [List.mem_cons, List.mem_append, List.mem_map] at h
  rcases h with rfl | rfl | rfl | rfl | ⟨name, hn, rfl⟩ | h
  · exact entry _ accepted.entryDefined
  · exact List.mem_cons_self
  · exact Routine.entry_mem_reservedLabels .call
  · exact .tail _ List.mem_cons_self
  · exact Routine.uses_allCode.2 name hn
  · cases Line.mentions_of_mem_referentsOf h with
    | routine routine => exact routine.entry_mem_reservedLabels
    | mark set => exact set
    | jump mem refers => exact Line.user_mem_marksOf (accepted.mem_declarations mem refers)
    | @call line name arguments mem calls =>
      have wf := (accepted.line_legal mem).2.2
      rw [calls] at wf
      exact entry name wf.2
    | static used =>
      rw [← statics_eq] at used
      exact used

/-- What an acceptable program knows is proper. -/
lemma proper_of_knows (accepted : program.Accepted settings)
    (h : program.Knows settings referent) : referent.Proper := by
  cases referent with
  | reserved text => exact reserved_labels.2 text h
  | label mark => exact accepted.clean_of_mem_marksOf h
  | static unit index =>
    obtain ⟨source, hs, h⟩ := List.mem_flatMap.mp h
    obtain ⟨index, -, e⟩ := List.mem_map.mp h
    cases e
    exact accepted.unitNames source hs

/-- The names of what an acceptable program knows tell it apart. -/
lemma name_injOn (accepted : program.Accepted settings) :
    Set.InjOn Referent.name { referent | program.Knows settings referent } :=
  fun _ h _ h' => Referent.name_inj (accepted.proper_of_knows h) (accepted.proper_of_knows h')

/-- The labels of an acceptable program's code are the names of what it knows besides its static
variables. -/
lemma mem_labels_iff (accepted : program.Accepted settings) {name : String} :
    name ∈ (program.assembly settings).labels ↔
      ∃ referent, program.Knows settings referent ∧ referent.static? = none ∧
        referent.name = name := by
  rw [accepted.labels_assembly, List.mem_append, List.mem_map]
  constructor
  · rintro (reserved | ⟨mark, set, rfl⟩)
    · exact ⟨.reserved name, reserved, rfl, rfl⟩
    · exact ⟨.label mark, set, rfl, rfl⟩
  · rintro ⟨referent, known, unstatic, rfl⟩
    cases referent with
    | reserved text => exact .inl known
    | label mark => exact .inr ⟨mark, known, rfl⟩
    | static unit index => cases unstatic

/-- Of what an acceptable program knows, all but the static variables are declared by its code. -/
lemma name_mem_labels_iff (accepted : program.Accepted settings)
    (h : program.Knows settings referent) :
    referent.name ∈ (program.assembly settings).labels ↔ referent.static? = none := by
  rw [accepted.mem_labels_iff]
  constructor
  · rintro ⟨other, known, unstatic, e⟩
    exact accepted.name_injOn known h e ▸ unstatic
  · exact fun unstatic => ⟨referent, h, unstatic, rfl⟩

end Accepted

end Program

end HackVM
