import HackVM.Text
import HackVM.Text.Bytes

/-!
# Paths

Paths are bytes with slashes between names. The name of a file, without what follows its last dot,
names the unit that the file holds, provided it is text.
-/

namespace HackVM.Path

/-- The byte between the names of a path. -/
def slash : UInt8 := '/'.toUInt8

/-- The byte in front of the extension of a name. -/
def dot : UInt8 := '.'.toUInt8

/-- The name that leads from a folder to itself. -/
def current : RawText := [dot]

/-- The name that leads from a folder to the one above. -/
def parent : RawText := [dot, dot]

/-- The number of bytes that a path may have. -/
def maxBytes : Nat := 4095

/-- The number of bytes that one name in a path may have. -/
def maxNameBytes : Nat := 255

/-- Whether a path has more bytes than a file system takes. -/
def isTooLong (path : RawText) : Bool :=
  maxBytes < path.length

/-- Whether a name has more bytes than a file system takes. -/
def isNameTooLong (name : RawText) : Bool :=
  maxNameBytes < name.length

/-- Whether a path starts at the top folder and not in the working folder. -/
def isAbsolute (path : RawText) : Bool :=
  path.head? = some slash

/-- The names of a path, with the empty ones that repeated slashes leave. -/
def pieces (path : RawText) : List RawText :=
  Text.pieces (· == slash) path

/-- The path of an entry of a folder. -/
def join (folder name : RawText) : RawText :=
  if folder.getLast? = some slash then folder ++ name else folder ++ slash :: name

/-- The name that a path ends in, if it ends in one: empty names and dots for the same folder are
passed over, and dots for the folder above are no name. -/
def fileName? (path : RawText) : Option RawText :=
  match (pieces path).reverse.dropWhile fun name => name == [] || name == current with
  | [] => none
  | name :: _ => if name = parent then none else some name

/-- A file name, cut at its last dot; a dot in front of the whole name does not count. -/
def cut (name : RawText) : RawText × Option RawText :=
  match (Text.pieces (· == dot) name).reverse with
  | last :: first :: more =>
    let stem := List.intercalate [dot] (first :: more).reverse
    if stem.isEmpty then (name, none) else (stem, some last)
  | _ => (name, none)

/-- What follows the last dot of a file name. -/
def extension? (name : RawText) : Option RawText :=
  (cut name).2

/-- The name of the unit that a file holds. A name that is no text names no unit. -/
def unitName? (path : RawText) : Option String :=
  (fileName? path).bind fun name => Text.decode? (cut name).1

end HackVM.Path
