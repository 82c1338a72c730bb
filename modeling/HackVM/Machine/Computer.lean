import HackVM.Machine.Image

/-!
# The computer

The Hack processor with its memory: an address register, a data register, a program counter, and
one instruction at a time. Reading or writing outside the memory stops it.
-/

namespace HackVM

/-- The number of cells of memory. -/
def ramSize : Nat := 24577

/-- The state of the computer. -/
structure Computer where
  ram : Vector Word ramSize
  a : Word
  d : Word
  pc : Nat
deriving DecidableEq, Repr

/-- Why the computer stops. -/
inductive Trap where
  /-- No instruction is at the program counter. -/
  | fetch (size address : Nat)
  /-- There is no such memory cell. -/
  | memory (address : Nat)
deriving DecidableEq, Repr

namespace Trap

/-- The text that reports a trap. -/
def message : Trap → String
  | .fetch size address =>
    "index out of bounds: the len is " ++ Nat.repr size ++ " but the index is " ++
      Nat.repr address
  | .memory address =>
    "index out of bounds: the len is " ++ Nat.repr ramSize ++ " but the index is " ++
      Nat.repr address

/-- How many instructions were begun by the step that trapped. -/
def begun : Trap → Nat
  | .fetch .. => 0
  | .memory _ => 1

end Trap

namespace Computer

/-- The computer when it is switched on. -/
def initial : Computer := ⟨Vector.replicate ramSize 0, 0, 0, 0⟩

/-- The content of a memory cell. -/
def read (computer : Computer) (address : Nat) : Except Trap Word :=
  if h : address < ramSize then .ok computer.ram[address] else .error (.memory address)

/-- Stores a value in a memory cell. -/
def write (computer : Computer) (address : Nat) (value : Word) : Except Trap Computer :=
  if h : address < ramSize then .ok { computer with ram := computer.ram.set address value h }
  else .error (.memory address)

/-- Every cell of memory can be read. -/
theorem read_eq_ok (computer : Computer) {address : Nat} (h : address < ramSize) :
    computer.read address = .ok computer.ram[address] := by
  simp [read, h]

/-- Every cell of memory can be written. -/
theorem write_eq_ok (computer : Computer) {address : Nat} (value : Word)
    (h : address < ramSize) :
    computer.write address value =
      .ok { computer with ram := computer.ram.set address value h } := by
  simp [write, h]

/-- The second input of the arithmetic unit; none is read if the value does not depend on it. -/
def input (computer : Computer) (comp : Comp) : Except Trap Word :=
  match comp.source? with
  | none => .ok 0
  | some .a => .ok computer.a
  | some .m => computer.read computer.a.toNat

/-- Stores a value in the registers among its targets. -/
def store (computer : Computer) (dest : Dest) (value : Word) : Computer :=
  { computer with
    a := if dest.a then value else computer.a
    d := if dest.d then value else computer.d }

/-- Executes an instruction. Memory is written, and a jump taken, at the address that the address
register held before. -/
def execute (computer : Computer) : Cell → Except Trap Computer
  | .load value => .ok { computer with a := value, pc := computer.pc + 1 }
  | .compute dest comp jump =>
    match computer.input comp with
    | .error trap => .error trap
    | .ok y =>
      let value := comp.value computer.d y
      let target := computer.a.toNat
      let pc := if jump.taken value then target else computer.pc + 1
      match if dest.m then computer.write target value else .ok computer with
      | .error trap => .error trap
      | .ok computer => .ok { computer.store dest value with pc := pc }

/-- Executes the instruction at the program counter. -/
def step (rom : Array Cell) (computer : Computer) : Except Trap Computer :=
  match rom[computer.pc]? with
  | none => .error (.fetch rom.size computer.pc)
  | some cell => computer.execute cell

end Computer

end HackVM
