/-!
# Statistics

What is counted while a program is compiled, and how the counts are printed.
-/

namespace HackVM

/-- Counts by kind, with the kinds in increasing order. -/
abbrev Tally := List (String × Nat)

namespace Tally

/-- Counts one more of a kind. -/
def bump (kind : String) : Tally → Tally
  | [] => [(kind, 1)]
  | (other, count) :: rest =>
    if kind = other then (other, count + 1) :: rest
    else if kind < other then (kind, 1) :: (other, count) :: rest
    else (other, count) :: bump kind rest

/-- How many of a kind were counted. -/
def count (kind : String) (tally : Tally) : Nat :=
  (tally.lookup kind).getD 0

end Tally

/-- What is counted while a program is compiled. -/
structure Statistics where
  functions : Nat
  commands : Nat
  kinds : Tally
  instructions : Nat
  callSites : Nat
  comparisonSites : Nat
  staticCells : Nat
  largestSize : Nat
  largestName : String
deriving DecidableEq, Repr

namespace Statistics

/-- Nothing counted yet. -/
def empty : Statistics := ⟨0, 0, [], 0, 0, 0, 0, 0, ""⟩

/-- Counts a command. -/
def recordCommand (stats : Statistics) (kind : String) : Statistics :=
  { stats with commands := stats.commands + 1, kinds := stats.kinds.bump kind }

/-- Counts a function; of several largest functions the first is kept. -/
def recordFunction (stats : Statistics) (name : String) (size : Nat) : Statistics :=
  let stats := { stats with functions := stats.functions + 1 }
  if stats.largestSize < size then { stats with largestSize := size, largestName := name }
  else stats

/-- Counts places that call a function and places that compare two values. -/
def recordSites (stats : Statistics) (calls comparisons : Nat) : Statistics :=
  { stats with
    callSites := stats.callSites + calls
    comparisonSites := stats.comparisonSites + comparisons }

/-- The lines of the report. -/
def lines (stats : Statistics) : List String :=
  ["Translation Statistics:",
    "  Functions translated: " ++ Nat.repr stats.functions,
    "  Commands translated: " ++ Nat.repr stats.commands,
    "  Instructions emitted: " ++ Nat.repr stats.instructions,
    "  Call sites: " ++ Nat.repr stats.callSites,
    "  Comparison sites: " ++ Nat.repr stats.comparisonSites,
    "  Static cells: " ++ Nat.repr stats.staticCells] ++
  (if stats.largestName.isEmpty then []
    else ["  Largest function: " ++ stats.largestName ++ " (" ++ Nat.repr stats.largestSize ++
      " instructions)"]) ++
  stats.kinds.map fun (kind, count) => "    " ++ kind ++ ": " ++ Nat.repr count

/-- The report: every line ends with a newline. -/
def text (stats : Statistics) : String :=
  String.join (stats.lines.map (· ++ "\n"))

end Statistics

end HackVM
