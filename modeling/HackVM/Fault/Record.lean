import HackVM.Fault
import HackVM.Text.Quoted

/-!
# Faults as records

A fault written with its kind and its fields, for a report on one line.
-/

namespace HackVM

/-- A field of a record. -/
inductive Field where
  | text (value : String)
  | number (value : Nat)
  | word (value : String)
deriving DecidableEq, Repr

/-- The written form of a field; only texts are quoted. -/
def Field.written : Field → String
  | .text value => Text.quoted value
  | .number value => Nat.repr value
  | .word value => value

/-- A record: its kind and its named fields in order. -/
structure Record where
  kind : String
  fields : List (String × Field)
deriving DecidableEq, Repr

/-- The written form of a record. -/
def Record.written (record : Record) : String :=
  let fields := record.fields.map fun (name, field) => name ++ ": " ++ field.written
  record.kind ++ " \x7b " ++ ", ".intercalate fields ++ " \x7d"

namespace Fault

/-- The kind of a fault. -/
def kind : Fault → String
  | .malformedCommand .. => "MalformedCommand"
  | .unresolvedLabel .. => "UnresolvedLabel"
  | .duplicateLabel .. => "DuplicateLabel"
  | .functionRedefinition .. => "FunctionRedefinition"
  | .missingEntryPoint _ => "MissingEntryPoint"
  | .undefinedFunction .. => "UndefinedFunction"
  | .invalidUnitName .. => "InvalidUnitName"
  | .duplicateUnit _ => "DuplicateUnit"
  | .staticOverflow .. => "StaticOverflow"
  | .invalidSettings _ => "InvalidConfig"
  | .unreadableLine .. => "Parse"

/-- The fields of a fault. -/
def fields : Fault → List (String × Field)
  | .malformedCommand unit position cause =>
    [("unit", .text unit), ("position", .number position), ("reason", .text cause.message)]
  | .unresolvedLabel scope label | .duplicateLabel scope label =>
    [("unit", .text scope.unit), ("function", .text scope.function), ("label", .text label)]
  | .functionRedefinition name firstUnit secondUnit =>
    [("name", .text name), ("first_unit", .text firstUnit), ("second_unit", .text secondUnit)]
  | .missingEntryPoint name | .duplicateUnit name => [("name", .text name)]
  | .undefinedFunction scope callee =>
    [("unit", .text scope.unit), ("function", .text scope.function), ("callee", .text callee)]
  | .invalidUnitName name cause => [("name", .text name), ("reason", .text cause.message)]
  | .staticOverflow unit index =>
    [("unit", .text unit), ("index", .number index.toNat), ("limit", .number staticLimit)]
  | .invalidSettings cause => [("reason", .text cause.message)]
  | .unreadableLine unit line cause =>
    [("unit", .text unit), ("line", .number line), ("reason", .text cause.message)]

/-- A fault as a record. -/
def record (fault : Fault) : Record := ⟨fault.kind, fault.fields⟩

end Fault

end HackVM
