import HackVM.Fault
import HackVM.Statistics

/-!
# Ledger

What is remembered from one command of a program to the next: the functions that are defined, the
return labels and static variables handed out, the labels of the function at hand, and the counts.
-/

namespace HackVM

/-- The labels of one function: those declared and those jumped to, in the order of the commands. -/
structure LabelUse where
  declared : List String
  referenced : List String
deriving DecidableEq, Repr

namespace LabelUse

/-- No label seen yet. -/
def empty : LabelUse := ⟨[], []⟩

/-- The first label that is jumped to and never declared. -/
def unresolved? (labels : LabelUse) : Option String :=
  labels.referenced.find? fun label => !labels.declared.contains label

end LabelUse

/-- What is remembered while a program is compiled. -/
structure Ledger where
  /-- Every function with the unit that defines it. -/
  functions : List (String × String)
  /-- How many return labels were handed out. -/
  returns : Nat
  /-- The static variables in use, by unit and index, in the order of their first use. -/
  statics : List (String × UInt16)
  labels : LabelUse
  stats : Statistics
deriving DecidableEq, Repr

namespace Ledger

/-- Nothing remembered yet. -/
def empty : Ledger := ⟨[], 0, [], .empty, .empty⟩

/-- Adds a function; a name can be defined once in a program. -/
def define (ledger : Ledger) (name unit : String) : Except Fault Ledger :=
  match ledger.functions.lookup name with
  | some first => .error (.functionRedefinition name first unit)
  | none => .ok { ledger with functions := ledger.functions ++ [(name, unit)] }

/-- The entry label of a function, which lies in the unit that defines it. -/
def entry? (ledger : Ledger) (name : String) : Option String :=
  (ledger.functions.lookup name).map fun unit => Scope.entry ⟨unit, name⟩

/-- Hands out a return label. -/
def nextReturn (ledger : Ledger) (scope : Scope) (tag : String) : String × Ledger :=
  let serial := ledger.returns + 1
  (scope.returnLabel tag serial, { ledger with returns := serial })

/-- Makes sure that a static variable has a cell. -/
def reserve (ledger : Ledger) (unit : String) (index : UInt16) : Except Fault Ledger :=
  if ledger.statics.contains (unit, index) then .ok ledger
  else if staticLimit ≤ ledger.statics.length then .error (.staticOverflow unit index)
  else .ok { ledger with statics := ledger.statics ++ [(unit, index)] }

/-- The symbol of a static variable, which has a cell from then on. -/
def staticCell (ledger : Ledger) (unit : String) (index : UInt16) :
    Except Fault (String × Ledger) :=
  (staticSymbol unit index, ·) <$> ledger.reserve unit index

/-- Declares a label of the function at hand. -/
def declareLabel (ledger : Ledger) (scope : Scope) (label : String) : Except Fault Ledger :=
  if ledger.labels.declared.contains label then .error (.duplicateLabel scope label)
  else .ok { ledger with
    labels := { ledger.labels with declared := ledger.labels.declared ++ [label] } }

/-- Notes a jump to a label of the function at hand. -/
def referToLabel (ledger : Ledger) (label : String) : Ledger :=
  { ledger with
    labels := { ledger.labels with referenced := ledger.labels.referenced ++ [label] } }

/-- The fault that ends a function which jumps to a label it never declares. -/
def unresolved? (ledger : Ledger) (scope : Scope) : Option Fault :=
  ledger.labels.unresolved?.map (.unresolvedLabel scope)

/-- Forgets the labels of the function at hand. -/
def forgetLabels (ledger : Ledger) : Ledger :=
  { ledger with labels := .empty }

/-- Counts a command. -/
def recordCommand (ledger : Ledger) (kind : String) : Ledger :=
  { ledger with stats := ledger.stats.recordCommand kind }

/-- Counts a function of a given size. -/
def recordFunction (ledger : Ledger) (name : String) (size : Nat) : Ledger :=
  { ledger with stats := ledger.stats.recordFunction name size }

/-- Counts places that call a function and places that compare two values. -/
def recordSites (ledger : Ledger) (calls comparisons : Nat) : Ledger :=
  { ledger with stats := ledger.stats.recordSites calls comparisons }

/-- The statistics with the static variables counted. -/
def finalStats (ledger : Ledger) : Statistics :=
  { ledger.stats with staticCells := ledger.statics.length }

end Ledger

end HackVM
