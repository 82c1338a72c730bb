import HackVM.Lowering

/-!
# Drafts

Code under construction, built request by request. A request works on the draft in place: it changes the
ledger and writes code as it goes, and a fault that stops it takes nothing back of what it did before.
Finishing a function forgets its labels whether or not all of them are declared.
-/

namespace HackVM

/-- Code written so far and the ledger that goes with it. -/
structure Draft where
  code : Code
  ledger : Ledger
deriving DecidableEq, Repr

/-- Something asked of a draft. -/
inductive Request where
  /-- Define a function in a unit. -/
  | define (name unit : String)
  /-- Write the code of a command at a site. -/
  | lower (site : Site) (inlineMax : UInt16) (command : Command)
  /-- Finish a function, whose labels must all be declared. -/
  | finish (scope : Scope)
  /-- Write code that needs nothing of the ledger. -/
  | write (code : Code)
deriving DecidableEq, Repr

/-- Work on a draft in place: a fault stops it and leaves the draft as it is by then. -/
abbrev Drafting := EStateM Fault Draft

namespace Drafting

/-- Goes on with the result of a check, or stops with its fault. -/
def check {α : Type} : Except Fault α → Drafting α
  | .ok result => pure result
  | .error fault => throw fault

/-- The ledger of the draft. -/
def ledger : Drafting Ledger := do
  return (← get).ledger

/-- Changes the ledger of the draft. -/
def note (change : Ledger → Ledger) : Drafting Unit :=
  modify fun draft => { draft with ledger := change draft.ledger }

/-- Writes code at the end of the draft. -/
def write (code : Code) : Drafting Unit :=
  modify fun draft => { draft with code := draft.code ++ code }

/-- Adds a function; a name can be defined once in a program. -/
def define (name unit : String) : Drafting Unit := do
  match (← ledger).functions.lookup name with
  | some first => throw (.functionRedefinition name first unit)
  | none => note fun ledger => { ledger with functions := ledger.functions ++ [(name, unit)] }

/-- Hands out a return label. -/
def nextReturn (scope : Scope) (tag : String) : Drafting String := do
  note fun ledger => { ledger with returns := ledger.returns + 1 }
  return scope.returnLabel tag (← ledger).returns

/-- Makes sure that a static variable which a command at the site uses has a cell. -/
def reserve (site : Site) (segment : Segment) (index : UInt16) : Drafting Unit := do
  let cells := (← ledger).statics
  if segment ≠ .statics ∨ (site.scope.unit, index) ∈ cells then pure ()
  else if staticLimit ≤ cells.length then throw (.staticOverflow site.scope.unit index)
  else note fun ledger => { ledger with statics := ledger.statics ++ [(site.scope.unit, index)] }

/-- Declares a label of the function at hand. -/
def declareLabel (scope : Scope) (label : String) : Drafting Unit := do
  if label ∈ (← ledger).labels.declared then throw (.duplicateLabel scope label)
  else note fun ledger => { ledger with
    labels := { ledger.labels with declared := ledger.labels.declared ++ [label] } }

/-- Writes the code of a push. -/
def push (site : Site) (segment : Segment) (index : UInt16) : Drafting Unit := do
  let location ← check (site.resolve segment index)
  reserve site segment index
  write location.pushCode

/-- Writes the code of a pop. -/
def pop (site : Site) (segment : Segment) (index : UInt16) : Drafting Unit := do
  let location ← check (site.resolve segment index)
  match location.popCode? with
  | none => throw (site.malformed .popConstant)
  | some code =>
    reserve site segment index
    write code

/-- Writes the code of an operation. -/
def operate (site : Site) (operation : Operation) : Drafting Unit := do
  let (code, after) := site.lowerOperation operation (← ledger)
  note fun _ => after
  write code

/-- Writes the code of a label. -/
def label (site : Site) (name : String) : Drafting Unit := do
  check (site.checkName name)
  declareLabel site.scope name
  write [.label (site.scope.userLabel name)]

/-- Writes the code of a jump to a label. -/
def goto (site : Site) (name : String) (code : String → Code) : Drafting Unit := do
  check (site.checkName name)
  note fun ledger => ledger.referToLabel name
  write (code (site.scope.userLabel name))

/-- Writes the code of the start of a function. -/
def function (site : Site) (locals inlineMax : UInt16) : Drafting Unit := do
  if maxImmediate < locals then throw (site.malformed (.localCount locals))
  else
    write [.label site.scope.entry]
    write (site.scope.prologue locals inlineMax)

/-- Writes the code of a call. -/
def call (site : Site) (name : String) (arguments : UInt16) : Drafting Unit := do
  if maxImmediate < arguments then throw (site.malformed (.argumentCount arguments))
  else match Ledger.entry? (← ledger) name with
    | none => throw (.undefinedFunction site.scope name)
    | some target =>
      let returnLabel ← nextReturn site.scope "ret"
      write (Code.callSequence target arguments returnLabel)
      note fun ledger => ledger.recordSites 1 0

/-- Writes the code of a command; functions with at most `inlineMax` locals clear them without a
loop. -/
def lower (site : Site) (inlineMax : UInt16) : Command → Drafting Unit
  | .push segment index => push site segment index
  | .pop segment index => pop site segment index
  | .operate operation => operate site operation
  | .label name => label site name
  | .goto name => goto site name Code.goto
  | .ifGoto name => goto site name fun target => Code.popD ++ Code.branch target .ifNonzero
  | .function _ locals => function site locals inlineMax
  | .call name arguments => call site name arguments
  | .ret => write (Code.goto (Routine.entry .return))

/-- Finishes a function, which forgets its labels in any case. -/
def finish (scope : Scope) : Drafting Unit := do
  let unresolved := (← ledger).unresolved? scope
  note Ledger.forgetLabels
  match unresolved with
  | some fault => throw fault
  | none => pure ()

end Drafting

/-- The work that a request asks for. -/
def Request.work : Request → Drafting Unit
  | .define name unit => Drafting.define name unit
  | .lower site inlineMax command => Drafting.lower site inlineMax command
  | .finish scope => Drafting.finish scope
  | .write code => Drafting.write code

namespace Draft

/-- Nothing written yet. -/
def empty : Draft := ⟨[], .empty⟩

/-- Carries out a request, and says why if it was refused. -/
def perform (draft : Draft) (request : Request) : Draft × Option Fault :=
  match request.work.run draft with
  | .ok _ draft => (draft, none)
  | .error fault draft => (draft, some fault)

/-- Carries out requests in order, and gives the outcome of each. -/
def performAll (draft : Draft) : List Request → Draft × List (Option Fault)
  | [] => (draft, [])
  | request :: rest =>
    let (draft, outcome) := draft.perform request
    let (draft, outcomes) := draft.performAll rest
    (draft, outcome :: outcomes)

end Draft

end HackVM
