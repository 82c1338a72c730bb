import HackVM.CommandLine.Path
import HackVM.Fault.Record

/-!
# File trees

Folders and files as a tree: what a list of names leads to, putting something there, and what
can be seen of a tree from outside.
-/

namespace HackVM

/-- Why a file system refuses. -/
inductive FileError where
  | notFound
  | permissionDenied
  | notADirectory
  | isADirectory
  | nameTooLong
  | other (code : Nat) (message : String)
deriving DecidableEq, Repr

namespace FileError

/-- The record of a refusal that the operating system numbers. -/
def numbered (code : Nat) (kind message : String) : Record :=
  ⟨"Os", [("code", .number code), ("kind", .word kind), ("message", .text message)]⟩

/-- The record of a refusal. -/
def record : FileError → Record
  | .notFound => numbered 2 "NotFound" "No such file or directory"
  | .permissionDenied => numbered 13 "PermissionDenied" "Permission denied"
  | .notADirectory => numbered 20 "NotADirectory" "Not a directory"
  | .isADirectory => numbered 21 "IsADirectory" "Is a directory"
  | .nameTooLong => numbered 36 "InvalidFilename" "File name too long"
  | .other code message => numbered code "Uncategorized" message

end FileError

/-- A file with its content, or a folder with its named entries. -/
inductive FileTree (α : Type) where
  | file (content : α)
  | folder (entries : List (RawText × FileTree α))
  /-- A folder whose entries cannot be listed. -/
  | closed (error : FileError)

namespace FileTree

variable {α : Type}

/-- The entries of a folder after one of them is replaced or, if there is none of its name, added. -/
def setEntry (name : RawText) (tree : FileTree α) :
    List (RawText × FileTree α) → List (RawText × FileTree α)
  | [] => [(name, tree)]
  | (other, old) :: rest =>
    if other = name then (name, tree) :: rest else (other, old) :: setEntry name tree rest

/-- What a list of names leads to. -/
def get? : FileTree α → List RawText → Option (FileTree α)
  | tree, [] => some tree
  | .folder entries, name :: rest =>
    match entries.lookup name with
    | some tree => tree.get? rest
    | none => none
  | _, _ :: _ => none

/-- Puts a tree where a list of names leads, making the folders that are missing on the way. -/
def put : FileTree α → List RawText → (new : FileTree α) → FileTree α
  | _, [], new => new
  | .folder entries, name :: rest, new =>
    .folder (setEntry name (((entries.lookup name).getD (.folder [])).put rest new) entries)
  | _, name :: rest, new => .folder [(name, (FileTree.folder []).put rest new)]

mutual

/-- What can be seen of a tree that a path leads to: its names, and which of them are folders. With a
path that is too long nothing can be asked, so no folder is seen there. -/
def seen (path : RawText) : FileTree α → FileTree Unit
  | .file _ => .file ()
  | .folder entries => if Path.isTooLong path then .file () else .folder (seenAll path entries)
  | .closed error => if Path.isTooLong path then .file () else .closed error

/-- What can be seen of the entries of a folder. -/
def seenAll (folder : RawText) : List (RawText × FileTree α) → List (RawText × FileTree Unit)
  | [] => []
  | entry :: rest => seenEntry folder entry :: seenAll folder rest

/-- What can be seen of an entry of a folder. -/
def seenEntry (folder : RawText) : RawText × FileTree α → RawText × FileTree Unit
  | (name, tree) => (name, seen (Path.join folder name) tree)

end

end FileTree

end HackVM
