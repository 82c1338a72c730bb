import HackVM.Instruction

/-!
# Assembly text

How instructions are written, and what is left of the text when the place to write it is too small.
-/

namespace HackVM

/-- The letters of the targets. -/
def Dest.mnemonic (dest : Dest) : String :=
  (if dest.a then "A" else "") ++ (if dest.m then "M" else "") ++ (if dest.d then "D" else "")

/-- The mnemonic of a jump condition; empty if it never jumps. -/
def Jump.mnemonic (jump : Jump) : String :=
  match jump.negative, jump.zero, jump.positive with
  | false, false, false => ""
  | false, false, true => "JGT"
  | false, true, false => "JEQ"
  | false, true, true => "JGE"
  | true, false, false => "JLT"
  | true, false, true => "JNE"
  | true, true, false => "JLE"
  | true, true, true => "JMP"

/-- The letter of a second input. -/
def Source.mnemonic : Source → String
  | .a => "A"
  | .m => "M"

/-- The mnemonic of a computed value. -/
def Comp.mnemonic : Comp → String
  | .zero => "0"
  | .one => "1"
  | .negOne => "-1"
  | .d => "D"
  | .notD => "!D"
  | .negD => "-D"
  | .incD => "D+1"
  | .decD => "D-1"
  | .input y => y.mnemonic
  | .not y => "!" ++ y.mnemonic
  | .neg y => "-" ++ y.mnemonic
  | .inc y => y.mnemonic ++ "+1"
  | .dec y => y.mnemonic ++ "-1"
  | .add y => "D+" ++ y.mnemonic
  | .sub y => "D-" ++ y.mnemonic
  | .subFrom y => y.mnemonic ++ "-D"
  | .and y => "D&" ++ y.mnemonic
  | .or y => "D|" ++ y.mnemonic

/-- The targets that a mnemonic stands for. -/
def Dest.ofMnemonic? (word : String) : Option Dest :=
  all.find? fun dest => dest.mnemonic == word

/-- The jump condition that a mnemonic stands for. -/
def Jump.ofMnemonic? (word : String) : Option Jump :=
  all.find? fun jump => jump.mnemonic == word

/-- The computed value that a mnemonic stands for. -/
def Comp.ofMnemonic? (word : String) : Option Comp :=
  all.find? fun comp => comp.mnemonic == word

/-- Targets are told apart by their mnemonics. -/
@[simp]
theorem Dest.ofMnemonic?_mnemonic (dest : Dest) : ofMnemonic? dest.mnemonic = some dest := by
  obtain ⟨a, d, m⟩ := dest
  cases a <;> cases d <;> cases m <;> decide

/-- Jump conditions are told apart by their mnemonics. -/
@[simp]
theorem Jump.ofMnemonic?_mnemonic (jump : Jump) : ofMnemonic? jump.mnemonic = some jump := by
  obtain ⟨negative, zero, positive⟩ := jump
  cases negative <;> cases zero <;> cases positive <;> decide

/-- Computed values are told apart by their mnemonics. -/
@[simp]
theorem Comp.ofMnemonic?_mnemonic (comp : Comp) : ofMnemonic? comp.mnemonic = some comp := by
  cases comp with
  | input y | not y | neg y | inc y | dec y | add y | sub y | subFrom y | and y | or y =>
    cases y <;> decide
  | _ => decide

/-- The text of an operand. -/
def Operand.text : Operand → String
  | .constant value => Nat.repr value.toNat
  | .register cell => cell.symbol
  | .symbol name => name

/-- The text of a line of assembly; a field that does nothing is left out. -/
def Instruction.text : Instruction → String
  | .load operand => "@" ++ operand.text
  | .label name => "(" ++ name ++ ")"
  | .compute dest comp jump =>
    (if dest = .nowhere then "" else dest.mnemonic ++ "=") ++ comp.mnemonic ++
      (if jump = .never then "" else ";" ++ jump.mnemonic)

namespace Code

/-- The lines of assembly text. -/
def lines (code : Code) : List String :=
  code.map Instruction.text

/-- The assembly text: every line ends with a newline. -/
def text (code : Code) : String :=
  String.join (code.map fun instruction => instruction.text ++ "\n")

/-- The text of code is that of its first line and then that of the rest. -/
theorem text_cons (instruction : Instruction) (code : Code) :
    text (instruction :: code) = instruction.text ++ "\n" ++ code.text := by
  simp [text]

end Code

/-- Writes an instruction piece by piece; a field that does nothing is left out. -/
def Instruction.print {m : Type → Type} [Monad m] (put : String → m Unit) : Instruction → m Unit
  | .load operand => do
    put "@"
    put operand.text
  | .label name => do
    put "("
    put name
    put ")"
  | .compute dest comp jump => do
    unless dest = .nowhere do
      put dest.mnemonic
      put "="
    put comp.mnemonic
    unless jump = .never do
      put ";"
      put jump.mnemonic

/-- Writes code line by line, wherever `put` writes a text. -/
def Code.print {m : Type → Type} [Monad m] (put : String → m Unit) : Code → m Unit
  | [] => pure ()
  | first :: rest => do
    first.print put
    put "\n"
    Code.print put rest

/-- Work that writes to a place without a limit. -/
abbrev Collecting := StateM ByteArray

/-- Writes a text behind what is there. -/
def Collecting.put (text : String) : Collecting Unit :=
  modify fun bytes => bytes ++ text.toUTF8

/-- The bytes that writing code leaves in a place without a limit. -/
def Code.bytes (code : Code) : ByteArray :=
  (StateT.run (code.print Collecting.put) ByteArray.empty).2

/-- A place that holds a limited number of bytes: what it holds and the room left. -/
structure Buffer where
  bytes : ByteArray
  room : Nat

/-- What a write into a limited place may fail with: something was left over. -/
inductive WriteFault where
  | bufferFull
deriving DecidableEq, Repr

/-- The text that reports a failed write. -/
def WriteFault.message : WriteFault → String
  | .bufferFull => "failed to write whole buffer"

namespace Buffer

/-- An empty buffer with room for a number of bytes. -/
def empty (limit : Nat) : Buffer := ⟨.empty, limit⟩

/-- Stores as many bytes of a text as fit, and says whether all did. -/
def write (buffer : Buffer) (text : String) : Buffer × Except WriteFault Unit :=
  let bytes := text.toUTF8
  if bytes.size ≤ buffer.room then
    (⟨buffer.bytes ++ bytes, buffer.room - bytes.size⟩, .ok ())
  else (⟨buffer.bytes ++ bytes.extract 0 buffer.room, 0⟩, .error .bufferFull)

end Buffer

/-- Work that writes into a buffer, and stops where something is left over. -/
abbrev Writing := EStateM WriteFault Buffer

namespace Writing

/-- Writes a text. -/
def put (text : String) : Writing Unit := fun buffer =>
  match buffer.write text with
  | (buffer, .ok ()) => .ok () buffer
  | (buffer, .error fault) => .error fault buffer

end Writing

/-- Writes code into a buffer, and says whether all of it was stored. -/
def Code.write (code : Code) (buffer : Buffer) : Buffer × Except WriteFault Unit :=
  match (code.print Writing.put).run buffer with
  | .ok _ buffer => (buffer, .ok ())
  | .error fault buffer => (buffer, .error fault)

end HackVM
