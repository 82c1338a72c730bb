import HackVM.CommandLine.FileTree

/-!
# Sources

Which files the arguments of the command line stand for: a file for itself, and a folder for every
file below it whose extension is `vm`, in the order of their paths.
-/

namespace HackVM

/-- Why no program can be made of the arguments. -/
inductive Failure where
  /-- An argument names nothing. -/
  | neither (path : RawText)
  /-- No argument stands for a file. -/
  | noSources
  /-- A file has no name that could name a unit. -/
  | unnamed (path : RawText)
  /-- The file system refuses. -/
  | files (error : FileError)
  /-- A file does not hold text. -/
  | notText
  /-- The program has a fault. -/
  | program (fault : Fault)
deriving DecidableEq, Repr

/-- The written form of a failure. -/
def Failure.written : Failure → String
  | .neither path => Text.quoted (Text.shown path ++ " is neither a file nor a directory")
  | .noSources => Text.quoted "no .vm files found in the given inputs"
  | .unnamed path => Text.quoted ("cannot derive a unit name from " ++ Text.shown path)
  | .files error => error.record.written
  | .notText =>
    Record.written ⟨"Error", [("kind", .word "InvalidData"),
      ("message", .text "stream did not contain valid UTF-8")]⟩
  | .program fault => fault.record.written

namespace Sources

variable {α : Type}

/-- Joins the results for the entries of a folder in the order of their names; the first error in
that order is the result. -/
def inOrder (results : List (RawText × Except FileError (List RawText))) :
    Except FileError (List RawText) :=
  List.flatten <$> (results.mergeSort fun one two => decide (one.1 ≤ two.1)).mapM Prod.snd

mutual

/-- The sources at or below a path, which has a given name. -/
def below (path name : RawText) : FileTree α → Except FileError (List RawText)
  | .file _ => .ok (if Path.extension? name = some (Text.encode "vm") then [path] else [])
  | .folder entries => inOrder (belowAll path entries)
  | .closed error => .error error

/-- The sources of each entry of a folder. -/
def belowAll (folder : RawText) :
    List (RawText × FileTree α) → List (RawText × Except FileError (List RawText))
  | [] => []
  | entry :: rest => belowEntry folder entry :: belowAll folder rest

/-- The sources of an entry of a folder. -/
def belowEntry (folder : RawText) :
    RawText × FileTree α → RawText × Except FileError (List RawText)
  | (name, tree) => (name, below (Path.join folder name) name tree)

end

/-- The sources that an argument stands for. -/
def ofArgument (path : RawText) : Option (FileTree α) → Except Failure (List RawText)
  | none => .error (.neither path)
  | some (.file _) => .ok [path]
  | some (.folder entries) => (inOrder (belowAll path entries)).mapError .files
  | some (.closed error) => .error (.files error)

/-- The sources that arguments stand for, in the order of the arguments. -/
def gather : List (RawText × Option (FileTree α)) → Except Failure (List RawText)
  | [] => .ok []
  | (path, found) :: rest => do
    let files ← ofArgument path found
    let more ← gather rest
    return files ++ more

end Sources

end HackVM
