import HackVM.Instruction

/-!
# Idioms

The short instruction sequences that all generated code is put together from. The stack pointer
names the first free cell, and a sequence leaves the value it moves in the data register.
-/

namespace HackVM.Code

/-- Loads the address of a register. -/
def address (register : Register) : Instruction :=
  .load (.register register)

/-- Loads a number. -/
def number (value : UInt16) : Instruction :=
  .load (.constant value)

/-- Loads the value of a symbol. -/
def symbol (name : String) : Instruction :=
  .load (.symbol name)

/-- Computes a value and stores it. -/
def assign (dest : Dest) (comp : Comp) : Instruction :=
  .compute dest comp .never

/-- Jumps to the loaded address if a computed value meets a condition. -/
def jump (comp : Comp) (condition : Jump) : Instruction :=
  .compute .nowhere comp condition

/-- Jumps to a label. -/
def goto (label : String) : Code :=
  [symbol label, jump .zero .always]

/-- Jumps to a label if the data register meets a condition. -/
def branch (label : String) (condition : Jump) : Code :=
  [symbol label, jump .d condition]

/-- Jumps to the address that a register holds. -/
def gotoVia (register : Register) : Code :=
  [address register, assign .toA (.input .m), jump .zero .always]

/-- Pushes a computed value that depends on neither the address register nor memory. -/
def pushComp (comp : Comp) : Code :=
  [address .sp, assign .toAM (.inc .m), assign .toA (.dec .a), assign .toM comp]

/-- Pushes the data register. -/
def pushD : Code :=
  pushComp .d

/-- Pops the topmost value into the data register. -/
def popD : Code :=
  [address .sp, assign .toAM (.dec .m), assign .toD (.input .m)]

/-- Loads the address of the topmost value. -/
def addressTop : Code :=
  [address .sp, assign .toA (.dec .m)]

/-- Stores the data register in a register. -/
def storeD (register : Register) : Code :=
  [address register, assign .toM .d]

/-- Loads a register into the data register. -/
def loadD (register : Register) : Code :=
  [address register, assign .toD (.input .m)]

/-- Replaces the two topmost values by one computed from them: the upper one is in the data
register and the lower one in memory. -/
def binary (comp : Comp) : Code :=
  popD ++ [assign .toA (.dec .a), assign .toM comp]

/-- Replaces the topmost value by one computed from it. -/
def unary (comp : Comp) : Code :=
  addressTop ++ [assign .toM comp]

end HackVM.Code
