/-!
# Memory map and registers

The machine word of the Hack platform, the places of its memory that a compiled program uses and
the largest number that one instruction can hold; the memory cells that compiled code uses by name,
the roles of the scratch cells, and the frame that a call saves on the stack.
-/

namespace HackVM

/-- A sixteen-bit machine word, whose arithmetic wraps. -/
abbrev Word := BitVec 16

/-- The first cell of the `temp` segment. -/
def tempBase : Nat := 5

/-- The number of cells of the `temp` segment. -/
def tempSize : Nat := 8

/-- The first cell that holds a static variable. -/
def staticBase : Nat := 16

/-- The number of cells that all static variables of a program share. -/
def staticLimit : Nat := 240

/-- The cell at which the stack starts unless the settings say otherwise. -/
def defaultStackBase : UInt16 := 256

/-- The largest number that an instruction `@n` holds. -/
def maxImmediate : UInt16 := 32767

/-- A memory cell with a fixed place: the stack pointer, the four segment bases, the cells of the
`temp` segment and three scratch cells. -/
inductive Register where
  | sp
  | lcl
  | arg
  | this
  | that
  | temp (slot : Nat)
  | r13
  | r14
  | r15
deriving DecidableEq, Repr

namespace Register

/-- The place of a register in memory. -/
def address : Register → Nat
  | .sp => 0
  | .lcl => 1
  | .arg => 2
  | .this => 3
  | .that => 4
  | .temp slot => tempBase + slot
  | .r13 => 13
  | .r14 => 14
  | .r15 => 15

/-- The name of a register in assembly text: its own, or `R` and its address. -/
def symbol : Register → String
  | .sp => "SP"
  | .lcl => "LCL"
  | .arg => "ARG"
  | .this => "THIS"
  | .that => "THAT"
  | r => "R" ++ Nat.repr r.address

/-- Carries the number of arguments to the shared call routine. -/
def argumentCount : Register := .r13

/-- Carries the address of the callee to the shared call routine. -/
def callTarget : Register := .r14

/-- Holds the return address while the shared return routine takes the frame down. -/
def returnAddress : Register := .r13

/-- Walks down the saved frame in the shared return routine. -/
def frameWalker : Register := .r14

/-- Holds the return address while a shared comparison routine runs. -/
def compareReturn : Register := .r15

end Register

namespace Frame

/-- A cell of the frame that a call saves. -/
inductive Slot where
  | returnAddress
  | saved (register : Register)
deriving DecidableEq, Repr

/-- The segment bases that a call saves, in the order in which it pushes them. -/
def bases : List Register := [.lcl, .arg, .this, .that]

/-- The cells of a frame in the order in which a call pushes them. -/
def slots : List Slot := .returnAddress :: bases.map .saved

/-- The number of cells of a frame. -/
def size : UInt16 := 5

/-- How far below the end of the frame a cell lies; a cell that is not part of the frame counts
as its first one. -/
def depth (slot : Slot) : UInt16 :=
  size - UInt16.ofNat ((slots.idxOf? slot).getD 0)

end Frame

end HackVM
