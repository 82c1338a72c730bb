import Mathlib
import HackVM.Compile

/-!
# The outline of a program

What a program says about itself without being compiled: the words that its operations and segments
are called by, the functions it defines, the labels that each function declares and jumps to, the static
variables it uses, and every command together with the function it belongs to. `Program.Accepted` puts together, free of any order, what makes a program
acceptable, and `Program.assembly` is the code that an acceptable program stands for.
-/

namespace HackVM

namespace Name

/-- A legal name has characters, all of them name characters, and does not start with a digit. -/
structure Legal (name : String) : Prop where
  nonempty : name.toList ≠ []
  first : ∀ c ∈ name.toList.head?, c.isDigit = false
  chars : ∀ c ∈ name.toList, isNameChar c = true

/-- A name without a fault is a legal one. -/
lemma fault?_eq_none_iff {name : String} : fault? name = none ↔ Legal name := by
  unfold fault?
  cases e : name.toList with
  | nil =>
    refine ⟨nofun, fun legal => ?_⟩
    exact absurd e legal.nonempty
  | cons first rest =>
    dsimp only
    by_cases hd : first.isDigit = true
    · rw [if_pos hd]
      refine ⟨nofun, fun legal => ?_⟩
      have h := legal.first first (by simp [e])
      rw [hd] at h
      exact nomatch h
    · rw [if_neg hd, Option.map_eq_none_iff, List.find?_eq_none]
      constructor
      · intro h
        refine ⟨by simp [e], by simpa [e] using hd, fun c hc => ?_⟩
        rw [e] at hc
        simpa using h c hc
      · intro legal c hc
        have h := legal.chars c (e ▸ hc)
        simp [h]

/-- The check of names lets exactly the legal ones pass. -/
lemma check_eq_ok_iff {name : String} : check name = .ok () ↔ Legal name := by
  rw [← fault?_eq_none_iff, check]
  cases fault? name <;> simp

instance (name : String) : Decidable (Legal name) :=
  decidable_of_iff _ fault?_eq_none_iff

end Name

/-- The words for operations, and what each of them means. -/
inductive Operation.Called : String → Operation → Prop where
  | add : Called "add" .add
  | sub : Called "sub" .sub
  | neg : Called "neg" .neg
  | eq : Called "eq" (.compare .eq)
  | gt : Called "gt" (.compare .gt)
  | lt : Called "lt" (.compare .lt)
  | and : Called "and" .and
  | or : Called "or" .or
  | not : Called "not" .not

/-- An operation is called by its keyword and by nothing else. -/
lemma Operation.called_iff {word : String} {operation : Operation} :
    Called word operation ↔ word = operation.keyword := by
  constructor
  · intro called
    cases called <;> rfl
  · rintro rfl
    cases operation with
    | add => exact .add
    | sub => exact .sub
    | neg => exact .neg
    | compare comparison =>
      cases comparison with
      | eq => exact .eq
      | gt => exact .gt
      | lt => exact .lt
    | and => exact .and
    | or => exact .or
    | not => exact .not

/-- The words for segments, and what each of them means. -/
inductive Segment.Called : String → Segment → Prop where
  | locals : Called "local" .locals
  | arguments : Called "argument" .arguments
  | this : Called "this" .this
  | that : Called "that" .that
  | pointer : Called "pointer" .pointer
  | temp : Called "temp" .temp
  | constant : Called "constant" .constant
  | statics : Called "static" .statics

/-- A segment is called by its keyword and by nothing else. -/
lemma Segment.called_iff {word : String} {segment : Segment} :
    Called word segment ↔ word = segment.keyword := by
  constructor
  · intro called
    cases called <;> rfl
  · rintro rfl
    cases segment with
    | locals => exact .locals
    | arguments => exact .arguments
    | this => exact .this
    | that => exact .that
    | pointer => exact .pointer
    | temp => exact .temp
    | constant => exact .constant
    | statics => exact .statics

namespace Command

/-- Whether the command starts a function. -/
def isFunction : Command → Bool
  | .function .. => true
  | _ => false

/-- The name of the function that the command starts. -/
def defines? : Command → Option String
  | .function name _ => some name
  | _ => none

/-- The label that the command declares. -/
def declares? : Command → Option String
  | .label name => some name
  | _ => none

/-- The label that the command jumps to. -/
def refersTo? : Command → Option String
  | .goto name | .ifGoto name => some name
  | _ => none

/-- The index of the static variable that the command uses. -/
def static? : Command → Option UInt16
  | .push .statics index | .pop .statics index => some index
  | _ => none

/-- How many places that call a function the command makes. -/
def callSites : Command → Nat
  | .call .. => 1
  | _ => 0

/-- How many places that compare two values the command makes. -/
def comparisonSites : Command → Nat
  | .operate (.compare _) => 1
  | _ => 0

/-- How many return labels the command takes. -/
def returnLabels (command : Command) : Nat :=
  command.callSites + command.comparisonSites

/-- What a command must satisfy wherever it stands: its index lies in its segment, its count fits an
instruction, its name is legal, its callee is among the functions defined in the program. -/
def WellFormed (defined : List String) : Command → Prop
  | .push segment index => index ≤ segment.maxIndex
  | .pop segment index => index ≤ segment.maxIndex ∧ segment ≠ .constant
  | .label name | .goto name | .ifGoto name => Name.Legal name
  | .function _ locals => locals ≤ maxImmediate
  | .call name arguments => arguments ≤ maxImmediate ∧ name ∈ defined
  | .operate _ | .ret => True

instance (defined : List String) : (command : Command) → Decidable (command.WellFormed defined)
  | .push segment index => inferInstanceAs (Decidable (index ≤ segment.maxIndex))
  | .pop segment index =>
    inferInstanceAs (Decidable (index ≤ segment.maxIndex ∧ segment ≠ .constant))
  | .label name | .goto name | .ifGoto name => inferInstanceAs (Decidable (Name.Legal name))
  | .function _ locals => inferInstanceAs (Decidable (locals ≤ maxImmediate))
  | .call name arguments =>
    inferInstanceAs (Decidable (arguments ≤ maxImmediate ∧ name ∈ defined))
  | .operate _ | .ret => inferInstanceAs (Decidable True)

/-- The labels that commands declare, in order. -/
def declared (commands : List Command) : List String :=
  commands.filterMap declares?

/-- The labels that commands jump to, in order. -/
def referenced (commands : List Command) : List String :=
  commands.filterMap refersTo?

lemma declared_cons (command : Command) (rest : List Command) :
    declared (command :: rest) = command.declares?.toList ++ declared rest := by
  rw [declared, List.filterMap_cons]
  cases command.declares? <;> rfl

lemma referenced_cons (command : Command) (rest : List Command) :
    referenced (command :: rest) = command.refersTo?.toList ++ referenced rest := by
  rw [referenced, List.filterMap_cons]
  cases command.refersTo? <;> rfl

/-- The commands up to the next start of a function. -/
def body (commands : List Command) : List Command :=
  commands.takeWhile fun command => !command.isFunction

/-- The bodies of the functions of a unit: each goes from behind a `function` command to the next
one or to the end of the unit. -/
def bodies : List Command → List (List Command)
  | [] => []
  | command :: rest => if command.isFunction then body rest :: bodies rest else bodies rest

lemma body_function (name : String) (locals : UInt16) (rest : List Command) :
    body (.function name locals :: rest) = [] := rfl

lemma body_eq_nil {commands : List Command}
    (starts : ∀ command ∈ commands.head?, command.isFunction = true) : body commands = [] := by
  cases commands with
  | nil => rfl
  | cons command rest => simp [body, starts command rfl]

lemma body_cons_of_not {command : Command} (h : command.isFunction = false)
    (rest : List Command) : body (command :: rest) = command :: body rest := by
  simp [body, h]

lemma bodies_cons_of_not {command : Command} (h : command.isFunction = false)
    (rest : List Command) : bodies (command :: rest) = bodies rest := by
  simp [bodies, h]

end Command

/-- Labels fit together: none is declared twice and every one that is jumped to is declared. -/
structure LabelUse.Consistent (labels : LabelUse) : Prop where
  nodup : labels.declared.Nodup
  resolved : ∀ label ∈ labels.referenced, label ∈ labels.declared

instance (labels : LabelUse) : Decidable labels.Consistent :=
  decidable_of_iff (labels.declared.Nodup ∧ ∀ label ∈ labels.referenced, label ∈ labels.declared)
    ⟨fun h => ⟨h.1, h.2⟩, fun h => ⟨h.1, h.2⟩⟩

/-- The labels that commands declare and jump to. -/
def Command.labelUse (commands : List Command) : LabelUse :=
  ⟨declared commands, referenced commands⟩

/-- A legal unit name: no dot in it and no two underscores in front. -/
structure SourceUnit.LegalName (name : String) : Prop where
  legal : Name.Legal name
  undotted : '.' ∉ name.toList
  unreserved : ¬ ['_', '_'] <+: name.toList

/-- A unit's name without a fault is a legal one. -/
lemma SourceUnit.nameFault?_eq_none_iff {name : String} :
    SourceUnit.nameFault? name = none ↔ SourceUnit.LegalName name := by
  unfold SourceUnit.nameFault?
  cases e : Name.fault? name with
  | some fault =>
    refine ⟨nofun, fun h => ?_⟩
    have := Name.fault?_eq_none_iff.mpr h.legal
    rw [e] at this
    exact nomatch this
  | none =>
    have legal := Name.fault?_eq_none_iff.mp e
    constructor
    · intro h
      split_ifs at h with hdot hprefix
      exact ⟨legal, by simpa using hdot, by simpa using hprefix⟩
    · intro h
      simp [h.undotted, h.unreserved]

instance (name : String) : Decidable (SourceUnit.LegalName name) :=
  decidable_of_iff _ SourceUnit.nameFault?_eq_none_iff

/-- A command together with the function it belongs to. -/
structure Line where
  scope : Scope
  command : Command
deriving DecidableEq, Repr

/-- The static variable that a line uses: its unit and its index. -/
def Line.static? (line : Line) : Option (String × UInt16) :=
  line.command.static?.map (line.scope.unit, ·)

/-- A ledger that knows the functions of a program and how many return labels were handed out. -/
def Ledger.opening (functions : List (String × String)) (returns : Nat) : Ledger :=
  ⟨functions, returns, [], .empty, .empty⟩

/-- The code of a line in a program with given functions, in front of which a number of return labels
was handed out. A line that cannot be lowered has no code. -/
def Line.code (functions : List (String × String)) (inlineMax : UInt16) (returns : Nat)
    (line : Line) : Code :=
  match Site.lower ⟨line.scope, 0⟩ inlineMax line.command (.opening functions returns) with
  | .ok (code, _) => code
  | .error _ => []

/-- The code of lines that follow one another. -/
def Line.codeOf (functions : List (String × String)) (inlineMax : UInt16) :
    (returns : Nat) → List Line → Code
  | _, [] => []
  | returns, line :: rest =>
    line.code functions inlineMax returns ++
      codeOf functions inlineMax (returns + line.command.returnLabels) rest

lemma Line.codeOf_append (functions : List (String × String)) (inlineMax : UInt16) (returns : Nat)
    (first second : List Line) :
    codeOf functions inlineMax returns (first ++ second) =
      codeOf functions inlineMax returns first ++
        codeOf functions inlineMax
          (returns + (first.map fun line => line.command.returnLabels).sum) second := by
  induction first generalizing returns with
  | nil => rfl
  | cons line rest ih =>
    rw [List.cons_append, codeOf, codeOf, ih, List.append_assoc, List.map_cons, List.sum_cons,
      Nat.add_assoc]

/-- The function that a command belongs to, after the commands of another one. -/
def Command.within (current : String) (command : Command) : String :=
  command.defines?.getD current

/-- The commands of a unit, each with its function; `current` is the function in front of them. -/
def SourceUnit.linesFrom (unit : String) : (current : String) → List Command → List Line
  | _, [] => []
  | current, command :: rest =>
    ⟨⟨unit, command.within current⟩, command⟩ :: linesFrom unit (command.within current) rest

/-- The lines of a unit use the static variables of its commands. -/
lemma SourceUnit.statics_linesFrom (unit current : String) (commands : List Command) :
    (linesFrom unit current commands).filterMap Line.static? =
      (commands.filterMap Command.static?).map fun index => (unit, index) := by
  induction commands generalizing current with
  | nil => rfl
  | cons command rest ih =>
    rw [linesFrom, List.filterMap_cons, List.filterMap_cons, ih, Line.static?]
    cases command.static? <;> rfl

namespace Program

/-- The commands of a program in order, each with its function. -/
def lines (program : Program) : List Line :=
  program.flatMap fun unit => SourceUnit.linesFrom unit.name "" unit.commands

/-- The functions of a program, each with the unit that defines it. -/
def definitions (program : Program) : List (String × String) :=
  program.flatMap fun unit =>
    (unit.commands.filterMap Command.defines?).map fun name => (name, unit.name)

/-- The names of the functions of a program. -/
def functionNames (program : Program) : List String :=
  program.definitions.map Prod.fst

/-- The static variables of a program, as often as they are used. -/
def statics (program : Program) : List (String × UInt16) :=
  program.flatMap fun unit =>
    (unit.commands.filterMap Command.static?).map fun index => (unit.name, index)

/-- The label at the entry of the function that a program starts with; none if it has no such
function. -/
def entryLabel (settings : Settings) (program : Program) : String :=
  ((program.definitions.lookup settings.entryPoint).map fun unit =>
    Scope.entry ⟨unit, settings.entryPoint⟩).getD ""

/-- The code in front of the first command of a program. -/
def preamble (settings : Settings) (program : Program) : Code :=
  Bootstrap.code settings.stackBase (program.entryLabel settings) ++ Routine.allCode

/-- The code that an acceptable program stands for. -/
def assembly (settings : Settings) (program : Program) : Code :=
  program.preamble settings ++
    Line.codeOf program.definitions settings.inlineLocals 0 program.lines

/-- What makes a program acceptable under given settings. No condition speaks of the order in which
units or commands are looked at. -/
structure Accepted (settings : Settings) (program : Program) : Prop where
  stackBase : settings.stackBase ≤ maxImmediate
  entryName : Name.Legal settings.entryPoint
  unitNames : ∀ unit ∈ program, SourceUnit.LegalName unit.name
  unitsDistinct : (program.map SourceUnit.name).Nodup
  functionsLegal : ∀ name ∈ program.functionNames, Name.Legal name
  functionsDistinct : program.functionNames.Nodup
  entryDefined : settings.entryPoint ∈ program.functionNames
  starts : ∀ unit ∈ program, ∀ command ∈ unit.commands.head?, command.isFunction = true
  wellFormed : ∀ unit ∈ program, ∀ command ∈ unit.commands,
    command.WellFormed program.functionNames
  labels : ∀ unit ∈ program, ∀ body ∈ Command.bodies unit.commands,
    (Command.labelUse body).Consistent
  staticBudget : program.statics.toFinset.card ≤ staticLimit

end Program

end HackVM
