import HackVM.CommandLine.FileTree

/-!
# Disks

A file tree together with the folder of it in which a program works, and the operations of a file
system: finding what a path names, reading a file, and writing one. A path leads from the working
folder unless it starts with a slash, and it may lead out of the working folder.
-/

namespace HackVM

/-- A file tree and the names that lead to the working folder. -/
structure Disk (α : Type) where
  tree : FileTree α
  home : List RawText

namespace Disk

variable {α : Type}

/-- The names that lead to where a path starts. -/
def origin (disk : Disk α) (path : RawText) : List RawText :=
  if Path.isAbsolute path then [] else disk.home

/-- Follows the pieces of a path from the folder that `here` leads to, and gives the names that lead
to its end. The folder above the topmost one is that folder itself. -/
def resolve (disk : Disk α) : (here : List RawText) → (path : List RawText) →
    Except FileError (List RawText)
  | here, [] => .ok here
  | here, piece :: rest =>
    match disk.tree.get? here with
    | some (.folder entries) =>
      if piece = [] ∨ piece = Path.current then resolve disk here rest
      else if piece = Path.parent then resolve disk here.dropLast rest
      else if Path.isNameTooLong piece then .error .nameTooLong
      else if (entries.lookup piece).isSome then resolve disk (here ++ [piece]) rest
      else .error .notFound
    | some (.closed error) => .error error
    | some (.file _) => .error .notADirectory
    | none => .error .notFound

/-- What a path names. -/
def find (disk : Disk α) (path : RawText) : Except FileError (FileTree α) := do
  if Path.isTooLong path then throw .nameTooLong
  let names ← disk.resolve (disk.origin path) (Path.pieces path)
  match disk.tree.get? names with
  | some found => return found
  | none => throw .notFound

/-- What can be seen at a path. -/
def look (disk : Disk α) (path : RawText) : Option (FileTree Unit) :=
  match disk.find path with
  | .ok tree => some (tree.seen path)
  | .error _ => none

/-- The content of the file that a path names. -/
def read (disk : Disk α) (path : RawText) : Except FileError α := do
  match ← disk.find path with
  | .file content => return content
  | .folder _ => throw .isADirectory
  | .closed error => throw error

/-- The names that lead to the file that is written at a path. A path that ends in a slash or in dots
can only name a folder. -/
def target (disk : Disk α) (path : RawText) : Except FileError (List RawText) := do
  if Path.isTooLong path then throw .nameTooLong
  let pieces := (Path.pieces path).reverse
  match pieces.dropWhile (· == []) with
  | [] => throw .isADirectory
  | name :: above =>
    let here ← disk.resolve (disk.origin path) above.reverse
    match disk.tree.get? here with
    | some (.folder entries) =>
      if pieces.head? = some [] ∨ name = Path.current ∨ name = Path.parent then throw .isADirectory
      if Path.isNameTooLong name then throw .nameTooLong
      match entries.lookup name with
      | some (.folder _) | some (.closed _) => throw .isADirectory
      | _ => return here ++ [name]
    | some (.closed error) => throw error
    | some (.file _) => throw .notADirectory
    | none => throw .notFound

/-- Writes the file that a path names, in place of one that is there. -/
def write (disk : Disk α) (path : RawText) (content : α) : Except FileError (Disk α) := do
  let names ← disk.target path
  return { disk with tree := disk.tree.put names (.file content) }

end Disk

end HackVM
