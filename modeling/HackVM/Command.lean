import HackVM.Instruction
import HackVM.Segment

/-!
# Commands

The commands of the stack machine, the units that hold them and the programs made of units. A
command is written as its kind and its operands, with one blank between words.
-/

namespace HackVM

/-- A comparison of the two topmost values. -/
inductive Comparison where
  | eq
  | gt
  | lt
deriving DecidableEq, Repr

/-- An operation on the topmost values of the stack. -/
inductive Operation where
  | add
  | sub
  | neg
  | compare (comparison : Comparison)
  | and
  | or
  | not
deriving DecidableEq, Repr

/-- A command of the stack machine. -/
inductive Command where
  | push (segment : Segment) (index : UInt16)
  | pop (segment : Segment) (index : UInt16)
  | operate (operation : Operation)
  | label (name : String)
  | goto (name : String)
  | ifGoto (name : String)
  | function (name : String) (locals : UInt16)
  | call (name : String) (arguments : UInt16)
  | ret
deriving DecidableEq, Repr

/-- The commands of one source file, under its name. -/
structure SourceUnit where
  name : String
  commands : List Command
deriving DecidableEq, Repr

/-- A program: its units in order. -/
abbrev Program := List SourceUnit

namespace Comparison

/-- Every comparison. -/
def all : List Comparison := [.eq, .gt, .lt]

/-- The word for the comparison, in command text and in the labels of its sites. -/
def tag : Comparison → String
  | .eq => "eq"
  | .gt => "gt"
  | .lt => "lt"

/-- The sign of the difference of the operands for which the comparison holds. -/
def trueWhen : Comparison → Jump
  | .eq => .ifZero
  | .gt => .ifPositive
  | .lt => .ifNegative

end Comparison

namespace Operation

/-- Every operation. -/
def all : List Operation :=
  [.add, .sub, .neg, .compare .eq, .compare .gt, .compare .lt, .and, .or, .not]

/-- The word for the operation in command text. -/
def keyword : Operation → String
  | .add => "add"
  | .sub => "sub"
  | .neg => "neg"
  | .compare comparison => comparison.tag
  | .and => "and"
  | .or => "or"
  | .not => "not"

/-- The operation that a word names. -/
def ofKeyword? (word : String) : Option Operation :=
  all.find? fun operation => operation.keyword == word

/-- The keyword of an operation names it. -/
@[simp]
theorem ofKeyword?_keyword (operation : Operation) :
    ofKeyword? operation.keyword = some operation := by
  cases operation with
  | compare comparison => cases comparison <;> decide
  | _ => decide

/-- The comparison that the operation makes, if it is one. -/
def comparison? : Operation → Option Comparison
  | .compare comparison => some comparison
  | _ => none

end Operation

/-- The first word of a command, by which statistics count it. -/
def Command.kind : Command → String
  | .push .. => "push"
  | .pop .. => "pop"
  | .operate operation => operation.keyword
  | .label _ => "label"
  | .goto _ => "goto"
  | .ifGoto _ => "if-goto"
  | .function .. => "function"
  | .call .. => "call"
  | .ret => "return"

/-- The words of a command. -/
def Command.words (command : Command) : List String :=
  command.kind :: match command with
    | .push segment index | .pop segment index => [segment.keyword, Nat.repr index.toNat]
    | .label name | .goto name | .ifGoto name => [name]
    | .function name count | .call name count => [name, Nat.repr count.toNat]
    | .operate _ | .ret => []

/-- The text of a command. -/
def Command.text (command : Command) : String :=
  " ".intercalate command.words

/-- The number of commands of a program. -/
def Program.commandCount : Program → Nat
  | [] => 0
  | unit :: rest => unit.commands.length + commandCount rest

end HackVM
