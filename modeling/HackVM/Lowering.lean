import HackVM.Ledger
import HackVM.Routine

/-!
# Lowering commands

The code of each command. Lowering a command takes the ledger and gives the code together with the
new ledger, or the fault that stops it; so a command that is refused changes nothing.
-/

namespace HackVM

/-- Where a command stands: its function and its position in the unit. -/
structure Site where
  scope : Scope
  position : Nat
deriving DecidableEq, Repr

namespace Site

/-- The fault of a malformed command at the site. -/
def malformed (site : Site) (cause : Malformation) : Fault :=
  .malformedCommand site.scope.unit site.position cause

/-- The place that a segment and an index name at the site. -/
def resolve (site : Site) (segment : Segment) (index : UInt16) : Except Fault Location :=
  (segment.resolve site.scope.unit index).mapError fun fault => site.malformed (.index fault)

/-- Refuses an illegal name at the site. -/
def checkName (site : Site) (name : String) : Except Fault Unit :=
  (Name.check name).mapError fun fault => site.malformed (.name fault)

/-- Makes sure that a static variable which the command at the site uses has a cell. -/
def reserve (site : Site) (segment : Segment) (index : UInt16) (ledger : Ledger) :
    Except Fault Ledger :=
  match segment with
  | .statics => ledger.reserve site.scope.unit index
  | _ => .ok ledger

end Site

namespace Location

open Code

/-- Pushes the value at a place. -/
def pushCode : Location → Code
  | .immediate value =>
    if value = 0 then pushComp .zero
    else if value = 1 then pushComp .one
    else [number value, assign .toD (.input .a)] ++ pushD
  | .indirect base offset =>
    (if offset = 0 then [address base, assign .toA (.input .m)]
      else if offset = 1 then [address base, assign .toA (.inc .m)]
      else [number offset, assign .toD (.input .a), address base, assign .toA (.add .m)]) ++
    [assign .toD (.input .m)] ++ pushD
  | .direct register => loadD register ++ pushD
  | .variable name => [symbol name, assign .toD (.input .m)] ++ pushD

/-- Computes the address of a cell at an offset from a base. -/
def addressCode (base : Register) (offset : UInt16) : Code :=
  if offset = 0 then loadD base
  else if offset = 1 then [address base, assign .toD (.inc .m)]
  else [number offset, assign .toD (.input .a), address base, assign .toD (.add .m)]

/-- Pops a value into a place; a mere value is no place to pop into. The address and the popped
value are told apart from their sum, so that no scratch cell is needed. -/
def popCode? : Location → Option Code
  | .immediate _ => none
  | .indirect base offset =>
    some (addressCode base offset ++
      [address .sp, assign .toAM (.dec .m), assign .toD (.add .m), assign .toA (.sub .m),
        assign .toM (.sub .a)])
  | .direct register => some (popD ++ storeD register)
  | .variable name => some (popD ++ [symbol name, assign .toM .d])

end Location

open Code in
/-- Clears the local variables of a function: one push for each if they are few, else a loop. -/
def Scope.prologue (scope : Scope) (locals inlineMax : UInt16) : Code :=
  if locals ≤ inlineMax then (List.replicate locals.toNat (pushComp .zero)).flatten
  else
    [number locals, assign .toD (.input .a), .label scope.localsLoop, assign .toD .decD] ++
    pushComp .zero ++ branch scope.localsLoop .ifPositive

/-- The code of a command and the ledger after it, or why the command is refused. -/
abbrev Lowered := Except Fault (Code × Ledger)

namespace Site

open Code

/-- Lowers a push. -/
def lowerPush (site : Site) (segment : Segment) (index : UInt16) (ledger : Ledger) : Lowered := do
  let location ← site.resolve segment index
  let ledger ← site.reserve segment index ledger
  return (location.pushCode, ledger)

/-- Lowers a pop. -/
def lowerPop (site : Site) (segment : Segment) (index : UInt16) (ledger : Ledger) : Lowered := do
  let location ← site.resolve segment index
  match location.popCode? with
  | none => throw (site.malformed .popConstant)
  | some code =>
    let ledger ← site.reserve segment index ledger
    return (code, ledger)

/-- Lowers an operation. -/
def lowerOperation (site : Site) (operation : Operation) (ledger : Ledger) : Code × Ledger :=
  match operation with
  | .add => (binary (.add .m), ledger)
  | .sub => (binary (.subFrom .m), ledger)
  | .and => (binary (.and .m), ledger)
  | .or => (binary (.or .m), ledger)
  | .neg => (unary (.neg .m), ledger)
  | .not => (unary (.not .m), ledger)
  | .compare comparison =>
    let (returnLabel, ledger) := ledger.nextReturn site.scope comparison.tag
    (callCompare comparison returnLabel, ledger.recordSites 0 1)

/-- Lowers a label. -/
def lowerLabel (site : Site) (name : String) (ledger : Ledger) : Lowered := do
  site.checkName name
  let ledger ← ledger.declareLabel site.scope name
  return ([.label (site.scope.userLabel name)], ledger)

/-- Lowers a jump. -/
def lowerGoto (site : Site) (name : String) (ledger : Ledger) : Lowered := do
  site.checkName name
  return (goto (site.scope.userLabel name), ledger.referToLabel name)

/-- Lowers a jump on a value that is not zero. -/
def lowerIfGoto (site : Site) (name : String) (ledger : Ledger) : Lowered := do
  site.checkName name
  return (popD ++ branch (site.scope.userLabel name) .ifNonzero, ledger.referToLabel name)

/-- Lowers the start of the function at the site. -/
def lowerFunction (site : Site) (locals inlineMax : UInt16) (ledger : Ledger) : Lowered :=
  if maxImmediate < locals then .error (site.malformed (.localCount locals))
  else .ok (.label site.scope.entry :: site.scope.prologue locals inlineMax, ledger)

/-- Lowers a call. -/
def lowerCall (site : Site) (name : String) (arguments : UInt16) (ledger : Ledger) : Lowered :=
  if maxImmediate < arguments then .error (site.malformed (.argumentCount arguments))
  else match ledger.entry? name with
    | none => .error (.undefinedFunction site.scope name)
    | some target =>
      let (returnLabel, ledger) := ledger.nextReturn site.scope "ret"
      .ok (callSequence target arguments returnLabel, ledger.recordSites 1 0)

/-- Lowers a command; functions with at most `inlineMax` locals clear them without a loop. -/
def lower (site : Site) (inlineMax : UInt16) (command : Command) (ledger : Ledger) : Lowered :=
  match command with
  | .push segment index => site.lowerPush segment index ledger
  | .pop segment index => site.lowerPop segment index ledger
  | .operate operation => .ok (site.lowerOperation operation ledger)
  | .label name => site.lowerLabel name ledger
  | .goto name => site.lowerGoto name ledger
  | .ifGoto name => site.lowerIfGoto name ledger
  | .function _ locals => site.lowerFunction locals inlineMax ledger
  | .call name arguments => site.lowerCall name arguments ledger
  | .ret => .ok (goto (Routine.entry .return), ledger)

end Site

end HackVM
