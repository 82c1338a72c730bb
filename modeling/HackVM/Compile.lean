import HackVM.Instruction.Printer
import HackVM.Lowering

/-!
# Compiling programs

A program is checked and lowered to one piece of code: the bootstrap, the shared routines, then the
units in order. Checks come in a fixed order, and the first fault is the one reported: the settings,
the names of the units, the functions that they define, the entry point, then the commands.
-/

namespace HackVM

/-- What can be chosen for a compilation. -/
structure Settings where
  /-- The function that the program starts with. -/
  entryPoint : String
  /-- Where the stack starts. -/
  stackBase : UInt16
  /-- The largest number of local variables that are cleared without a loop. -/
  inlineLocals : UInt16
deriving DecidableEq, Repr

/-- A compiled program: its code and what was counted. -/
structure Compiled where
  code : Code
  stats : Statistics
deriving DecidableEq, Repr

namespace Settings

/-- The settings unless chosen otherwise. -/
def default : Settings := ⟨"Sys.init", defaultStackBase, 2⟩

/-- Refuses settings that cannot be used. -/
def check (settings : Settings) : Except Fault Unit :=
  if maxImmediate < settings.stackBase then
    .error (.invalidSettings (.stackBase settings.stackBase))
  else (Name.check settings.entryPoint).mapError fun fault =>
    .invalidSettings (.entryPoint fault)

end Settings

namespace SourceUnit

/-- What is wrong with the name of a unit: it must be legal, without dots, since a dot joins a unit
to what it holds, and must leave two underscores in front to the shared routines. -/
def nameFault? (name : String) : Option UnitNameFault :=
  match Name.fault? name with
  | some fault => some (.name fault)
  | none =>
    if name.toList.contains '.' then some .dotted
    else if ['_', '_'].isPrefixOf name.toList then some .reserved
    else none

end SourceUnit

namespace Program

/-- Refuses a unit with an unusable name or the name of an earlier unit. -/
def checkUnitNames (earlier : List String) : Program → Except Fault Unit
  | [] => .ok ()
  | unit :: rest =>
    match SourceUnit.nameFault? unit.name with
    | some cause => .error (.invalidUnitName unit.name cause)
    | none =>
      if earlier.contains unit.name then .error (.duplicateUnit unit.name)
      else checkUnitNames (unit.name :: earlier) rest

/-- Defines the functions of a unit, from a position on; their names must be legal. -/
def defineFunctions (unit : String) :
    List Command → (position : Nat) → Ledger → Except Fault Ledger
  | [], _, ledger => .ok ledger
  | .function name _ :: rest, position, ledger => do
    Site.checkName ⟨⟨unit, name⟩, position⟩ name
    let ledger ← ledger.define name unit
    defineFunctions unit rest (position + 1) ledger
  | _ :: rest, position, ledger => defineFunctions unit rest (position + 1) ledger

/-- Defines the functions of a program. -/
def defineAll : Program → Ledger → Except Fault Ledger
  | [], ledger => .ok ledger
  | unit :: rest, ledger => do
    let ledger ← defineFunctions unit.name unit.commands 0 ledger
    defineAll rest ledger

end Program

/-- The function whose commands are being lowered, and the size of its code so far. -/
structure OpenFunction where
  scope : Scope
  size : Nat
deriving DecidableEq, Repr

namespace OpenFunction

/-- Ends a function: every label it jumps to must be declared. -/
def close (current : OpenFunction) (ledger : Ledger) : Except Fault Ledger :=
  match ledger.unresolved? current.scope with
  | some fault => .error fault
  | none => .ok (ledger.forgetLabels.recordFunction current.scope.function current.size)

/-- Ends the function at hand, if there is one. -/
def closeAny : Option OpenFunction → Ledger → Except Fault Ledger
  | none, ledger => .ok ledger
  | some current, ledger => current.close ledger

/-- The function that a command belongs to: a `function` command ends the function at hand and
starts its own, and any other command needs a function at hand. -/
def enter (unit : String) (position : Nat) (current? : Option OpenFunction) (command : Command)
    (ledger : Ledger) : Except Fault (OpenFunction × Ledger) :=
  match command with
  | .function name _ => (⟨⟨unit, name⟩, 0⟩, ·) <$> closeAny current? ledger
  | _ =>
    match current? with
    | some current => .ok (current, ledger)
    | none => .error (.malformedCommand unit position (.outsideFunction command))

end OpenFunction

namespace Program

/-- Lowers the commands of a unit from a position on. -/
def lowerCommands (inlineMax : UInt16) (unit : String) :
    List Command → (position : Nat) → (current? : Option OpenFunction) → Ledger → Lowered
  | [], _, current?, ledger => ([], ·) <$> OpenFunction.closeAny current? ledger
  | command :: rest, position, current?, ledger => do
    let (current, ledger) ← OpenFunction.enter unit position current? command ledger
    let (code, ledger) ← Site.lower ⟨current.scope, position⟩ inlineMax command ledger
    let current := { current with size := current.size + code.size }
    let (more, ledger) ← lowerCommands inlineMax unit rest (position + 1) (some current)
      (ledger.recordCommand command.kind)
    return (code ++ more, ledger)

/-- Lowers the units of a program in order. -/
def lowerUnits (inlineMax : UInt16) : Program → Ledger → Lowered
  | [], ledger => .ok ([], ledger)
  | unit :: rest, ledger => do
    let (code, ledger) ← lowerCommands inlineMax unit.name unit.commands 0 none ledger
    let (more, ledger) ← lowerUnits inlineMax rest ledger
    return (code ++ more, ledger)

/-- Compiles a program. -/
def compile (settings : Settings) (program : Program) : Except Fault Compiled := do
  settings.check
  program.checkUnitNames []
  let ledger ← program.defineAll .empty
  match ledger.entry? settings.entryPoint with
  | none => throw (.missingEntryPoint settings.entryPoint)
  | some entry =>
    let (body, ledger) ← lowerUnits settings.inlineLocals program ledger
    let code := Bootstrap.code settings.stackBase entry ++ Routine.allCode ++ body
    return ⟨code, { ledger.finalStats with instructions := code.size }⟩

end Program

end HackVM
