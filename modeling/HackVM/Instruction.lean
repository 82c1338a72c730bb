import HackVM.Register

/-!
# Instructions

The instructions of the Hack processor. A compute instruction has three fields, and each is given
here by what it does: which registers it stores to, which function it computes, and for which signs
of the value it jumps.
-/

namespace HackVM

/-- Where a compute instruction stores its value. -/
structure Dest where
  a : Bool
  d : Bool
  m : Bool
deriving DecidableEq, Repr

/-- For which values a compute instruction jumps: negative, zero, positive. -/
structure Jump where
  negative : Bool
  zero : Bool
  positive : Bool
deriving DecidableEq, Repr

/-- The second input of the processor's arithmetic unit: the address register or the memory cell
that it points to. -/
inductive Source where
  | a
  | m
deriving DecidableEq, Repr

/-- The value that a compute instruction computes, from the data register and a second input. -/
inductive Comp where
  | zero
  | one
  | negOne
  | d
  | notD
  | negD
  | incD
  | decD
  | input (y : Source)
  | not (y : Source)
  | neg (y : Source)
  | inc (y : Source)
  | dec (y : Source)
  | add (y : Source)
  | sub (y : Source)
  | subFrom (y : Source)
  | and (y : Source)
  | or (y : Source)
deriving DecidableEq, Repr

/-- What an address instruction loads: a number, a register's address, or the value of a symbol. -/
inductive Operand where
  | constant (value : UInt16)
  | register (cell : Register)
  | symbol (name : String)
deriving DecidableEq, Repr

/-- A line of assembly: an address instruction, a label, or a compute instruction. -/
inductive Instruction where
  | load (operand : Operand)
  | label (name : String)
  | compute (dest : Dest) (comp : Comp) (jump : Jump)
deriving DecidableEq, Repr

/-- Assembly code, line by line. -/
abbrev Code := List Instruction

namespace Dest

/-- Stores nowhere. -/
def nowhere : Dest := ⟨false, false, false⟩

/-- Stores to the address register. -/
def toA : Dest := ⟨true, false, false⟩

/-- Stores to the data register. -/
def toD : Dest := ⟨false, true, false⟩

/-- Stores to memory. -/
def toM : Dest := ⟨false, false, true⟩

/-- Stores to the address register and to memory. -/
def toAM : Dest := ⟨true, false, true⟩

/-- Stores to memory and to the data register. -/
def toMD : Dest := ⟨false, true, true⟩

/-- Every choice of targets. -/
def all : List Dest :=
  [nowhere, toM, toD, toMD, toA, toAM, ⟨true, true, false⟩, ⟨true, true, true⟩]

end Dest

namespace Jump

/-- Never jumps. -/
def never : Jump := ⟨false, false, false⟩

/-- Always jumps. -/
def always : Jump := ⟨true, true, true⟩

/-- Jumps on a positive value. -/
def ifPositive : Jump := ⟨false, false, true⟩

/-- Jumps on zero. -/
def ifZero : Jump := ⟨false, true, false⟩

/-- Jumps on a negative value. -/
def ifNegative : Jump := ⟨true, false, false⟩

/-- Jumps on any value but zero. -/
def ifNonzero : Jump := ⟨true, false, true⟩

/-- Jumps on zero or a positive value. -/
def ifNonnegative : Jump := ⟨false, true, true⟩

/-- Every condition. -/
def all : List Jump :=
  [never, ifPositive, ifZero, ifNonnegative, ifNegative, ifNonzero, ⟨true, true, false⟩, always]

/-- Whether the jump is taken on a value, read as a signed number. -/
def taken (jump : Jump) (value : Word) : Bool :=
  (jump.negative && value.toInt < 0) || (jump.zero && value.toInt == 0) ||
    (jump.positive && 0 < value.toInt)

end Jump

namespace Comp

/-- The second input that the value depends on, if it depends on one. -/
def source? : Comp → Option Source
  | .zero | .one | .negOne | .d | .notD | .negD | .incD | .decD => none
  | .input y | .not y | .neg y | .inc y | .dec y | .add y | .sub y | .subFrom y | .and y
  | .or y => some y

/-- Whether computing the value reads memory. -/
def readsMemory (comp : Comp) : Bool :=
  comp.source? == some .m

/-- Every function of the arithmetic unit. -/
def all : List Comp :=
  [.zero, .one, .negOne, .d, .notD, .negD, .incD, .decD] ++
    [Comp.input, .not, .neg, .inc, .dec, .add, .sub, .subFrom, .and, .or].flatMap fun comp =>
      [comp .a, comp .m]

/-- The value computed from the data register and the second input. -/
def value (d y : Word) : Comp → Word
  | .zero => 0
  | .one => 1
  | .negOne => -1
  | .d => d
  | .notD => ~~~d
  | .negD => -d
  | .incD => d + 1
  | .decD => d - 1
  | .input _ => y
  | .not _ => ~~~y
  | .neg _ => -y
  | .inc _ => y + 1
  | .dec _ => y - 1
  | .add _ => d + y
  | .sub _ => d - y
  | .subFrom _ => y - d
  | .and _ => d &&& y
  | .or _ => d ||| y

end Comp

/-- Whether the line occupies a word of program memory; a label does not. -/
def Instruction.isCode : Instruction → Bool
  | .label _ => false
  | _ => true

namespace Code

/-- The number of words of program memory that code occupies. -/
def size (code : Code) : Nat :=
  code.countP Instruction.isCode

@[simp]
theorem size_nil : size [] = 0 := rfl

@[simp]
theorem size_append (first second : Code) :
    size (first ++ second) = first.size + second.size := by
  simp [size]

end Code

end HackVM
