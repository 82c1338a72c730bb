/-!
# Scopes and the names made from them

Every label and static variable of a compiled program gets its name here. A dot joins a unit to
what it holds and a dollar sign joins a function's entry to a label inside it, so no two things of
a program share a name.
-/

namespace HackVM

/-- A function together with the unit that defines it. -/
structure Scope where
  unit : String
  function : String
deriving DecidableEq, Repr

namespace Scope

/-- The label at the entry of the function. -/
def entry (scope : Scope) : String :=
  scope.unit ++ "." ++ scope.function

/-- The label that stands for a label of the function's own commands. -/
def userLabel (scope : Scope) (label : String) : String :=
  scope.entry ++ "$" ++ label

/-- The label of the loop that clears the function's local variables. -/
def localsLoop (scope : Scope) : String :=
  scope.entry ++ "$locals$loop"

/-- The label at which control comes back, told apart from all others by its serial number. -/
def returnLabel (scope : Scope) (tag : String) (serial : Nat) : String :=
  scope.entry ++ "$" ++ tag ++ "$" ++ Nat.repr serial

end Scope

/-- The symbol of a static variable, private to its unit. -/
def staticSymbol (unit : String) (index : UInt16) : String :=
  unit ++ "." ++ Nat.repr index.toNat

end HackVM
