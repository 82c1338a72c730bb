import HackVM.Instruction
import HackVM.Text

/-!
# Program images

Loading code into program memory. A label stands for the address of the instruction after it; any
other symbol that the platform does not define is a variable, and variables get the cells from the
first static cell on, in the order of their first appearance.
-/

namespace HackVM

/-- The number of words of program memory. -/
def romSize : Nat := 32768

/-- The number of addresses that a word can hold. -/
def addressSpace : Nat := 65536

/-- A word of program memory. -/
inductive Cell where
  | load (value : Word)
  | compute (dest : Dest) (comp : Comp) (jump : Jump)
deriving DecidableEq, Repr

/-- Why code cannot be loaded. -/
inductive LoadFault where
  /-- A label is declared a second time. -/
  | duplicateLabel (name : String)
  /-- The address after the last instruction does not fit in a word. -/
  | addressOverflow
  /-- The code has more words than program memory. -/
  | tooLarge
  /-- A number needs more bits than an instruction has for it. -/
  | wideNumber (value : UInt16)
deriving DecidableEq, Repr

/-- A loaded program: its words, its labels with their addresses, and its variables in the order of
their cells. -/
structure Image where
  rom : Array Cell
  labels : List (String × Nat)
  vars : List String
deriving DecidableEq, Repr

/-- The text that reports code that cannot be loaded. -/
def LoadFault.message : LoadFault → String
  | .duplicateLabel name => "label (" ++ name ++ ") declared twice"
  | .addressOverflow => "attempt to add with overflow"
  | .tooLarge => "program does not fit in ROM"
  | .wideNumber value => "@" ++ Nat.repr value.toNat ++ " is not a valid A-instruction"

/-- The address of a symbol that the platform defines: the five pointers, the sixteen registers,
the screen and the keyboard. -/
def predefined? (name : String) : Option Nat :=
  match name with
  | "SP" => some 0
  | "LCL" => some 1
  | "ARG" => some 2
  | "THIS" => some 3
  | "THAT" => some 4
  | "SCREEN" => some 0x4000
  | "KBD" => some 0x6000
  | _ =>
    match name.toList with
    | 'R' :: digits => (Text.readWord? digits).bind fun index =>
      if index < 16 then some index.toNat else none
    | _ => none

namespace Code

/-- The labels of code with the addresses that they stand for, when a number of words is in front
of the code. -/
def labelTable : Code → (address : Nat) → List (String × Nat)
  | [], _ => []
  | .label name :: rest, address => (name, address) :: labelTable rest address
  | .load _ :: rest, address => labelTable rest (address + 1)
  | .compute .. :: rest, address => labelTable rest (address + 1)

/-- The symbols that code loads, in order. -/
def symbols (code : Code) : List String :=
  code.filterMap fun
    | .load (.symbol name) => some name
    | _ => none

/-- The first number in code that an instruction cannot hold. -/
def wideNumber? (code : Code) : Option UInt16 :=
  code.findSome? fun
    | .load (.constant value) => if maxImmediate < value then some value else none
    | _ => none

end Code

namespace Image

/-- The first name in a list that stands there again, given the names in front of it. -/
def firstRepeated? (earlier : List String) : List String → Option String
  | [] => none
  | name :: rest =>
    if earlier.contains name then some name else firstRepeated? (name :: earlier) rest

/-- The names in a list without repetition, in the order of their first appearance. -/
def distinct (names : List String) : List String :=
  names.foldl (fun found name => if found.contains name then found else found ++ [name]) []

/-- The value of a symbol that is no variable. -/
def fixed? (labels : List (String × Nat)) (name : String) : Option Nat :=
  (predefined? name).or (labels.lookup name)

/-- The variables of code: the symbols that have no other value. -/
def variablesOf (labels : List (String × Nat)) (code : Code) : List String :=
  distinct (code.symbols.filter fun name => (fixed? labels name).isNone)

/-- The value of a symbol. -/
def symbolValue (labels : List (String × Nat)) (vars : List String) (name : String) : Nat :=
  (fixed? labels name).getD (staticBase + vars.idxOf name)

/-- The value of an operand. -/
def operandValue (labels : List (String × Nat)) (vars : List String) : Operand → Word
  | .constant value => value.toBitVec
  | .register cell => .ofNat 16 cell.address
  | .symbol name => .ofNat 16 (symbolValue labels vars name)

/-- The words of code. -/
def cells (labels : List (String × Nat)) (vars : List String) (code : Code) : List Cell :=
  code.filterMap fun
    | .label _ => none
    | .load operand => some (.load (operandValue labels vars operand))
    | .compute dest comp jump => some (.compute dest comp jump)

/-- The labels of code that stand at an address which a word can hold, in order. -/
def placedLabels (code : Code) : List String :=
  ((code.labelTable 0).filter fun (_, address) => address < addressSpace).map Prod.fst

/-- Why code cannot be loaded, if it cannot. The code is read once to place its labels, and a label
that comes after the last address is not reached. -/
def fault? (code : Code) : Option LoadFault :=
  match firstRepeated? [] (placedLabels code) with
  | some name => some (.duplicateLabel name)
  | none =>
    if addressSpace ≤ code.size then some .addressOverflow
    else if romSize < code.size then some .tooLarge
    else code.wideNumber?.map .wideNumber

/-- Loads code. -/
def ofCode (code : Code) : Except LoadFault Image :=
  match fault? code with
  | some fault => .error fault
  | none =>
    let labels := code.labelTable 0
    let vars := variablesOf labels code
    .ok ⟨(cells labels vars code).toArray, labels, vars⟩

/-- The cell of a variable. -/
def variableCell? (image : Image) (name : String) : Option Nat :=
  (image.vars.idxOf? name).map (staticBase + ·)

end Image

end HackVM
