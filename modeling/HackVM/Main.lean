import HackVM.Main.Arguments

/-!
# The program

The command on the file system of the machine it runs on, where a path that is no text leads nowhere.
-/

namespace HackVM

/-- The refusal that an error of the operating system stands for. -/
def FileError.ofError : IO.Error → FileError
  | .noFileOrDirectory .. => .notFound
  | .permissionDenied .. => .permissionDenied
  | .inappropriateType _ code message =>
    if code = 20 then .notADirectory
    else if code = 21 then .isADirectory
    else .other code.toNat message
  | .invalidArgument _ code message =>
    if code = 36 then .nameTooLong else .other code.toNat message
  | error => .other 0 (toString error)

/-- The result of an action, with an error of the operating system as a refusal. -/
def FileError.catching {α : Type} (action : IO α) : IO (Except FileError α) := do
  try return .ok (← action)
  catch error => return .error (.ofError error)

/-- The entries below an entry of a folder. -/
partial def FileTree.ofEntry (entry : IO.FS.DirEntry) : IO (FileTree Unit) := do
  if ← entry.path.isDir then
    match ← FileError.catching entry.path.readDir with
    | .error error => return .closed error
    | .ok entries =>
      let entries ← entries.toList.mapM fun entry => do
        return (Text.encode entry.fileName, ← FileTree.ofEntry entry)
      return .folder entries
  else return .file ()

/-- The file system of the machine. -/
instance : FileSystem IO where
  look path := do
    let some path := Text.decode? path | return none
    let entry : IO.FS.DirEntry := { root := ".", fileName := path }
    if ← entry.path.pathExists then return some (← FileTree.ofEntry entry) else return none
  read path := do
    let some path := Text.decode? path | return .error .notFound
    FileError.catching (IO.FS.readBinFile path)
  write path bytes := do
    let some path := Text.decode? path | return .error .notFound
    FileError.catching (IO.FS.writeBinFile path bytes)

end HackVM

/-- Runs the command, prints what it says and gives its exit code. -/
def main (words : List String) : IO UInt32 := do
  let outcome : HackVM.Outcome ← HackVM.CommandLine.run HackVM.Arguments.read words
  IO.print outcome.output
  match outcome.errorLine with
  | some line => IO.eprintln line
  | none => if outcome.exitCode = 2 then IO.eprint HackVM.Arguments.helpText
  return outcome.exitCode.toUInt32
