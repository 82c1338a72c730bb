import HackVM.Command.Reader
import HackVM.CommandLine.Disk
import HackVM.CommandLine.Sources
import HackVM.Compile

/-!
# The command

What the command does, on any file system and with any reader of its arguments: it gathers the
sources, reads and compiles them, and only then writes the output, so a failure before that leaves
every file alone.
-/

namespace HackVM

/-- What the command needs of a file system. -/
class FileSystem (m : Type → Type) where
  /-- What a path names, with the entries of folders and without the contents of files. -/
  look : RawText → m (Option (FileTree Unit))
  /-- The content of a file. -/
  read : RawText → m (Except FileError ByteArray)
  /-- Writes a file. -/
  write : RawText → ByteArray → m (Except FileError Unit)

/-- A disk is a file system. -/
instance : FileSystem (StateM (Disk ByteArray)) where
  look path := return (← get).look path
  read path := return (← get).read path
  write path bytes := do
    match (← get).write path bytes with
    | .ok disk =>
      set disk
      return .ok ()
    | .error error => return .error error

/-- How the command ends. -/
structure Outcome where
  exitCode : UInt8
  output : String
  /-- The line that reports a failure. -/
  errorLine : Option String
deriving DecidableEq, Repr

/-- What the arguments of the command ask for. -/
structure Invocation where
  inputs : List RawText
  output : RawText
  entryPoint : String
  inlineLocals : UInt16
  stats : Bool
deriving DecidableEq, Repr

namespace Invocation

/-- The settings that the arguments choose. -/
def settings (invocation : Invocation) : Settings :=
  { Settings.default with
    entryPoint := invocation.entryPoint
    inlineLocals := invocation.inlineLocals }

variable {m : Type → Type} [Monad m] [FileSystem m]

/-- Reads a source as a unit that bears the name of the file. -/
def readSource (path : RawText) : ExceptT Failure m SourceUnit := do
  let some name := Path.unitName? path | throw (.unnamed path)
  match ← (FileSystem.read path : m (Except FileError ByteArray)) with
  | .error error => throw (.files error)
  | .ok bytes =>
    let some text := String.fromUTF8? bytes | throw .notText
    match SourceUnit.read name text with
    | .error fault => throw (.program fault)
    | .ok unit => return unit

/-- Looks at what the arguments name and gathers their sources. -/
def sources (invocation : Invocation) : ExceptT Failure m (List RawText) := do
  let found ← invocation.inputs.mapM fun path => do
    return (path, ← (FileSystem.look path : m (Option (FileTree Unit))))
  match Sources.gather found with
  | .error failure => throw failure
  | .ok [] => throw .noSources
  | .ok paths => return paths

/-- Compiles the sources and writes the assembly text. -/
def run (invocation : Invocation) : ExceptT Failure m Statistics := do
  let paths ← invocation.sources
  let program ← paths.mapM readSource
  match Program.compile invocation.settings program with
  | .error fault => throw (.program fault)
  | .ok compiled =>
    match ← (FileSystem.write invocation.output compiled.code.bytes : m (Except FileError Unit)) with
    | .error error => throw (.files error)
    | .ok () => return compiled.stats

end Invocation

/-- Does what the arguments of the command ask for. A reader of arguments may end the command itself,
as it does when they ask for help or cannot be read. -/
def CommandLine.run {m : Type → Type} [Monad m] [FileSystem m] {Argument : Type}
    (read : List Argument → Except Outcome Invocation) (arguments : List Argument) : m Outcome := do
  match read arguments with
  | .error outcome => return outcome
  | .ok invocation =>
    match ← invocation.run.run with
    | .ok stats => return ⟨0, if invocation.stats then stats.text else "", none⟩
    | .error failure => return ⟨1, "", some ("Error: " ++ failure.written)⟩

end HackVM
