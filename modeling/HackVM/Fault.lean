import HackVM.Command
import HackVM.Name

/-!
# Faults

Everything that can be wrong with a program or its text, and the wording of each report.
-/

namespace HackVM

/-- Why a line of command text is no command. -/
inductive LineFault where
  | unknownCommand (word : String)
  | unknownSegment (word : String)
  | operandCount (keyword : String) (expected found : Nat)
  | notANumber (word : String)
deriving DecidableEq, Repr

/-- Why a command cannot stand where it stands. -/
inductive Malformation where
  | name (fault : NameFault)
  | index (fault : IndexFault)
  | popConstant
  | argumentCount (count : UInt16)
  | localCount (count : UInt16)
  | outsideFunction (command : Command)
deriving DecidableEq, Repr

/-- Why a unit may not bear its name. -/
inductive UnitNameFault where
  | name (fault : NameFault)
  | dotted
  | reserved
deriving DecidableEq, Repr

/-- Why settings cannot be used. -/
inductive SettingsFault where
  | stackBase (base : UInt16)
  | entryPoint (fault : NameFault)
deriving DecidableEq, Repr

/-- Why a program or its text is refused. -/
inductive Fault where
  /-- A command, at its position in its unit, is malformed. -/
  | malformedCommand (unit : String) (position : Nat) (cause : Malformation)
  /-- A function jumps to a label that it never declares. -/
  | unresolvedLabel (scope : Scope) (label : String)
  /-- A function declares a label twice. -/
  | duplicateLabel (scope : Scope) (label : String)
  /-- Two `function` commands define the same name. -/
  | functionRedefinition (name firstUnit secondUnit : String)
  /-- No unit defines the function that the program starts with. -/
  | missingEntryPoint (name : String)
  /-- A function calls a function that no unit defines. -/
  | undefinedFunction (scope : Scope) (callee : String)
  /-- A unit's name cannot be used. -/
  | invalidUnitName (name : String) (cause : UnitNameFault)
  /-- Two units have the same name. -/
  | duplicateUnit (name : String)
  /-- A static variable does not fit into the cells that all static variables share. -/
  | staticOverflow (unit : String) (index : UInt16)
  /-- The settings cannot be used. -/
  | invalidSettings (cause : SettingsFault)
  /-- A line of command text, counted from one, is no command. -/
  | unreadableLine (unit : String) (line : Nat) (cause : LineFault)
deriving DecidableEq, Repr

/-- The text that reports a line that is no command. -/
def LineFault.message : LineFault → String
  | .unknownCommand word => "unknown command '" ++ word ++ "'"
  | .unknownSegment word => "unknown segment '" ++ word ++ "'"
  | .operandCount keyword expected found =>
    "'" ++ keyword ++ "' takes " ++ Nat.repr expected ++ " operand(s), found " ++ Nat.repr found
  | .notANumber word => "'" ++ word ++ "' is not a number in 0..=65535"

/-- The text that reports a malformed command. -/
def Malformation.message : Malformation → String
  | .name fault => fault.message
  | .index fault => fault.message
  | .popConstant => "cannot pop into the constant segment"
  | .argumentCount count =>
    "argument count " ++ Nat.repr count.toNat ++ " is out of range 0..=32767"
  | .localCount count => "local count " ++ Nat.repr count.toNat ++ " is out of range 0..=32767"
  | .outsideFunction command => "'" ++ command.text ++ "' appears outside any function"

/-- The text that reports an unusable unit name. -/
def UnitNameFault.message : UnitNameFault → String
  | .name fault => fault.message
  | .dotted => "unit names may not contain '.'"
  | .reserved => "the '__' prefix is reserved"

/-- The text that reports unusable settings. -/
def SettingsFault.message : SettingsFault → String
  | .stackBase base =>
    "stack base " ++ Nat.repr base.toNat ++ " does not fit an A-instruction (max 32767)"
  | .entryPoint fault => "entry point: " ++ fault.message

/-- The text that reports a fault. -/
def Fault.message : Fault → String
  | .malformedCommand unit position cause =>
    unit ++ ": command #" ++ Nat.repr position ++ ": " ++ cause.message
  | .unresolvedLabel scope label =>
    scope.unit ++ ": label '" ++ label ++ "' is referenced in function '" ++ scope.function ++
      "' but never declared there"
  | .duplicateLabel scope label =>
    scope.unit ++ ": label '" ++ label ++ "' is declared twice in function '" ++
      scope.function ++ "'"
  | .functionRedefinition name firstUnit secondUnit =>
    "function '" ++ name ++ "' is defined in '" ++ firstUnit ++ "' and again in '" ++
      secondUnit ++ "'"
  | .missingEntryPoint name => "entry point '" ++ name ++ "' is not defined in any source unit"
  | .undefinedFunction scope callee =>
    scope.unit ++ ": function '" ++ scope.function ++ "' calls undefined function '" ++
      callee ++ "'"
  | .invalidUnitName name cause => "invalid source unit name '" ++ name ++ "': " ++ cause.message
  | .duplicateUnit name => "source unit '" ++ name ++ "' appears more than once"
  | .staticOverflow unit index =>
    unit ++ ": static " ++ Nat.repr index.toNat ++ " exceeds the program-wide limit of " ++
      Nat.repr staticLimit ++ " static cells"
  | .invalidSettings cause => "invalid translator configuration: " ++ cause.message
  | .unreadableLine unit line cause => unit ++ ":" ++ Nat.repr line ++ ": " ++ cause.message

end HackVM
