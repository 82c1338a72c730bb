import HackVM.Fault
import HackVM.Text

/-!
# Command text, read

A line holds at most one command: its keyword and its operands, as words. Comments and lines
without words are skipped, and the first line that is no command is reported by its number.
-/

namespace HackVM

namespace Command

/-- Reads the number of a command. -/
def readNumber (word : String) : Except LineFault UInt16 :=
  match Text.readWord? word.toList with
  | some number => .ok number
  | none => .error (.notANumber word)

/-- Reads the segment of a command. -/
def readSegment (word : String) : Except LineFault Segment :=
  match Segment.ofKeyword? word with
  | some segment => .ok segment
  | none => .error (.unknownSegment word)

/-- Reads a command with no operand. -/
def readPlain (keyword : String) (command : Command) (operands : List String) :
    Except LineFault Command :=
  match operands with
  | [] => .ok command
  | _ => .error (.operandCount keyword 0 operands.length)

/-- Reads a command that names a label. -/
def readJump (keyword : String) (command : String → Command) (operands : List String) :
    Except LineFault Command :=
  match operands with
  | [name] => .ok (command name)
  | _ => .error (.operandCount keyword 1 operands.length)

/-- Reads a command that names a function and counts its variables. -/
def readCounted (keyword : String) (command : String → UInt16 → Command)
    (operands : List String) : Except LineFault Command :=
  match operands with
  | [name, count] => do return command name (← readNumber count)
  | _ => .error (.operandCount keyword 2 operands.length)

/-- Reads a command that moves a value; an unknown segment is reported before a bad number. -/
def readTransfer (keyword : String) (command : Segment → UInt16 → Command)
    (operands : List String) : Except LineFault Command :=
  match operands with
  | [segment, index] => do
    let segment ← readSegment segment
    let index ← readNumber index
    return command segment index
  | _ => .error (.operandCount keyword 2 operands.length)

/-- Reads a command from its keyword and its operands. -/
def ofWords (keyword : String) (operands : List String) : Except LineFault Command :=
  match Operation.ofKeyword? keyword with
  | some operation => readPlain keyword (.operate operation) operands
  | none =>
    match keyword with
    | "push" => readTransfer keyword .push operands
    | "pop" => readTransfer keyword .pop operands
    | "label" => readJump keyword .label operands
    | "goto" => readJump keyword .goto operands
    | "if-goto" => readJump keyword .ifGoto operands
    | "function" => readCounted keyword .function operands
    | "call" => readCounted keyword .call operands
    | "return" => readPlain keyword .ret operands
    | _ => .error (.unknownCommand keyword)

/-- Reads a line; a line without words holds no command. -/
def ofLine (line : List Char) : Except LineFault (Option Command) :=
  match (Text.words (Text.withoutComment line)).map String.ofList with
  | [] => .ok none
  | keyword :: operands => some <$> ofWords keyword operands

end Command

namespace SourceUnit

/-- Reads the commands of numbered lines, in order. -/
def readLines (name : String) : Nat → List (List Char) → Except Fault (List Command)
  | _, [] => .ok []
  | number, line :: rest =>
    match Command.ofLine line with
    | .error cause => .error (.unreadableLine name number cause)
    | .ok none => readLines name (number + 1) rest
    | .ok (some command) => (command :: ·) <$> readLines name (number + 1) rest

/-- Reads the text of a unit. -/
def read (name text : String) : Except Fault SourceUnit :=
  SourceUnit.mk name <$> readLines name 1 (Text.lines text.toList)

end SourceUnit

end HackVM
