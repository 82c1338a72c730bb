import HackVM.Register
import HackVM.Scope

/-!
# Segments

The eight segments of the stack machine's memory and the place that a segment and an index name.
-/

namespace HackVM

/-- A segment of the stack machine's memory. -/
inductive Segment where
  | locals
  | arguments
  | this
  | that
  | pointer
  | temp
  | constant
  | statics
deriving DecidableEq, Repr

/-- The place that a segment and an index name. -/
inductive Location where
  /-- The cell at an offset from the address that a register holds. -/
  | indirect (base : Register) (offset : UInt16)
  /-- A register itself. -/
  | direct (register : Register)
  /-- No cell at all, only a value. -/
  | immediate (value : UInt16)
  /-- The variable with a name of its own. -/
  | variable (symbol : String)
deriving DecidableEq, Repr

/-- An index beyond the end of its segment. -/
structure IndexFault where
  segment : Segment
  index : UInt16
deriving DecidableEq, Repr

namespace Segment

/-- Every segment. -/
def all : List Segment :=
  [.locals, .arguments, .this, .that, .pointer, .temp, .constant, .statics]

/-- The word that names a segment in command text. -/
def keyword : Segment → String
  | .locals => "local"
  | .arguments => "argument"
  | .this => "this"
  | .that => "that"
  | .pointer => "pointer"
  | .temp => "temp"
  | .constant => "constant"
  | .statics => "static"

/-- The segment that a word names. -/
def ofKeyword? (word : String) : Option Segment :=
  all.find? fun segment => segment.keyword == word

/-- The keyword of a segment names it. -/
@[simp]
theorem ofKeyword?_keyword (segment : Segment) : ofKeyword? segment.keyword = some segment := by
  cases segment <;> decide

/-- The largest index of a segment. -/
def maxIndex : Segment → UInt16
  | .pointer => 1
  | .temp => 7
  | _ => maxImmediate

/-- The place that an index of the segment names in a unit. -/
def resolve (segment : Segment) (unit : String) (index : UInt16) : Except IndexFault Location :=
  if segment.maxIndex < index then .error ⟨segment, index⟩
  else .ok <| match segment with
    | .locals => .indirect .lcl index
    | .arguments => .indirect .arg index
    | .this => .indirect .this index
    | .that => .indirect .that index
    | .pointer => .direct (if index = 0 then .this else .that)
    | .temp => .direct (.temp index.toNat)
    | .constant => .immediate index
    | .statics => .variable (staticSymbol unit index)

end Segment

/-- The text that reports an index beyond its segment. -/
def IndexFault.message (fault : IndexFault) : String :=
  fault.segment.keyword ++ " index " ++ Nat.repr fault.index.toNat ++ " is out of range 0..="
    ++ Nat.repr fault.segment.maxIndex.toNat

end HackVM
