import HackVM.Code
import HackVM.Command

/-!
# Shared routines

Calling, returning and comparing take many instructions, so each is written once and reached by a
jump. A site that wants to come back leaves its return address in the data register, except for
the return routine, which finds the address in the frame. The bootstrap sets up the stack and
calls the first function through the same call routine.
-/

namespace HackVM

/-- A routine that all sites of a program share. -/
inductive Routine where
  | call
  | return
  | compare (comparison : Comparison)
deriving DecidableEq, Repr

namespace Routine

/-- Every routine, in the order in which they are placed. -/
def all : List Routine :=
  [.call, .return, .compare .eq, .compare .gt, .compare .lt]

/-- The label at the entry of a routine. -/
def entry : Routine → String
  | .call => "__CALL"
  | .return => "__RETURN"
  | .compare .eq => "__EQ"
  | .compare .gt => "__GT"
  | .compare .lt => "__LT"

/-- A label inside a routine. -/
def inner (routine : Routine) (name : String) : String :=
  routine.entry ++ "$" ++ name

open Code in
/-- Pushes the frame, points the callee's bases at it and jumps to the callee. -/
def callCode : Code :=
  [.label (entry .call), address .sp, assign .toA (.input .m), assign .toM .d] ++
  (Frame.bases.flatMap fun base =>
    loadD base ++ [address .sp, assign .toAM (.inc .m), assign .toM .d]) ++
  [address .sp, assign .toMD (.inc .m)] ++ storeD .lcl ++
  [number Frame.size, assign .toD (.sub .a), address .argumentCount, assign .toD (.sub .m)] ++
  storeD .arg ++ gotoVia .callTarget

open Code in
/-- Moves the value to return, drops the callee's part of the stack, restores the caller's bases
from the topmost saved one down, and jumps back. -/
def returnCode : Code :=
  [.label (entry .return), number (Frame.depth .returnAddress), assign .toD (.input .a),
    address .lcl, assign .toA (.subFrom .m), assign .toD (.input .m)] ++
  storeD .returnAddress ++
  popD ++ [address .arg, assign .toA (.input .m), assign .toM .d, assign .toD (.input .a),
    address .sp, assign .toM .incD] ++
  loadD .lcl ++ [address .frameWalker, assign .toAM .decD] ++
  (Frame.bases.reverse.zipIdx.flatMap fun (base, i) =>
    -- The walker stands at the topmost saved base already.
    (if 0 < i then [address .frameWalker, assign .toAM (.dec .m)] else []) ++
      [assign .toD (.input .m)] ++ storeD base) ++
  gotoVia .returnAddress

open Code in
/-- Compares for equality by the difference of the operands. -/
def equalCode : Code :=
  let done := inner (.compare .eq) "END"
  [.label (entry (.compare .eq))] ++ storeD .compareReturn ++
  popD ++ [assign .toA (.dec .a), assign .toD (.subFrom .m), assign .toM .zero] ++
  branch done .ifNonzero ++
  addressTop ++ [assign .toM .negOne, .label done] ++ gotoVia .compareReturn

open Code in
/-- Compares by order. Operands of different signs are decided by their signs, since their
difference may not fit a word; otherwise the difference decides. -/
def orderCode (comparison : Comparison) : Code :=
  let inner := inner (.compare comparison)
  let ifXNegative := if comparison = .gt then inner "FALSE" else inner "TRUE"
  let ifYNegative := if comparison = .gt then inner "TRUE" else inner "FALSE"
  [.label (entry (.compare comparison))] ++ storeD .compareReturn ++
  popD ++ branch (inner "YNEG") .ifNegative ++
  addressTop ++ [assign .toD (.input .m)] ++ branch ifXNegative .ifNegative ++
  goto (inner "SUB") ++
  [.label (inner "YNEG")] ++
  addressTop ++ [assign .toD (.input .m)] ++ branch ifYNegative .ifNonnegative ++
  [.label (inner "SUB"), address .sp, assign .toA (.input .m), assign .toD (.input .m),
    assign .toA (.dec .a), assign .toD (.subFrom .m)] ++
  branch (inner "TRUE") comparison.trueWhen ++
  [.label (inner "FALSE")] ++ addressTop ++ [assign .toM .zero] ++ gotoVia .compareReturn ++
  [.label (inner "TRUE")] ++ addressTop ++ [assign .toM .negOne] ++ gotoVia .compareReturn

/-- The code that answers a comparison. -/
def compareCode : Comparison → Code
  | .eq => equalCode
  | .gt => orderCode .gt
  | .lt => orderCode .lt

/-- The code of a routine. -/
def code : Routine → Code
  | .call => callCode
  | .return => returnCode
  | .compare comparison => compareCode comparison

/-- The code of all routines. -/
def allCode : Code :=
  all.flatMap code

end Routine

/-- Loads the number of arguments for the call routine. -/
def Code.loadArgumentCount (count : UInt16) : Code :=
  if count = 0 then [address .argumentCount, assign .toM .zero]
  else if count = 1 then [address .argumentCount, assign .toM .one]
  else [number count, assign .toD (.input .a)] ++ storeD .argumentCount

/-- Calls the function at a label with a number of arguments and comes back at another label. -/
def Code.callSequence (target : String) (arguments : UInt16) (returnLabel : String) : Code :=
  loadArgumentCount arguments ++
  [symbol target, assign .toD (.input .a)] ++ storeD .callTarget ++
  [symbol returnLabel, assign .toD (.input .a)] ++
  goto (Routine.entry .call) ++ [.label returnLabel]

/-- Calls a comparison routine and comes back at a label. -/
def Code.callCompare (comparison : Comparison) (returnLabel : String) : Code :=
  [symbol returnLabel, assign .toD (.input .a)] ++
  goto (Routine.entry (.compare comparison)) ++ [.label returnLabel]

namespace Bootstrap

/-- The label at which the first function returns. -/
def returnLabel : String := "__BOOTSTRAP$ret"

/-- The label of the loop that a program ends in. -/
def halt : String := "__HALT"

open Code in
/-- Sets up the stack, calls the function at the entry label and halts when it returns. -/
def code (stackBase : UInt16) (entry : String) : Code :=
  [number stackBase, assign .toD (.input .a)] ++ storeD .sp ++
  callSequence entry 0 returnLabel ++
  [.label halt] ++ goto halt

end Bootstrap

end HackVM
