/-!
# Names

Which words may name a unit, a function or a label, and why a word may not.
-/

namespace HackVM

/-- Why a word is no legal name. -/
inductive NameFault where
  | empty
  | leadingDigit (name : String)
  | illegalCharacter (name : String) (character : Char)
deriving DecidableEq, Repr

/-- The text that reports an illegal name. -/
def NameFault.message : NameFault → String
  | .empty => "name is empty"
  | .leadingDigit name => "name '" ++ name ++ "' starts with a digit"
  | .illegalCharacter name character =>
    "name '" ++ name ++ "' contains illegal character '" ++ character.toString ++ "'"

namespace Name

/-- A character that names are made of: an ASCII letter or digit, `_`, `.` or `:`. -/
def isNameChar (c : Char) : Bool :=
  c.isAlphanum || c == '_' || c == '.' || c == ':'

/-- What is wrong with a name: it must have a character, must not start with a digit, and its
first illegal character is reported. -/
def fault? (name : String) : Option NameFault :=
  match name.toList with
  | [] => some .empty
  | first :: rest =>
    if first.isDigit then some (.leadingDigit name)
    else ((first :: rest).find? fun c => !isNameChar c).map (.illegalCharacter name)

/-- Refuses a word that is no legal name. -/
def check (name : String) : Except NameFault Unit :=
  match fault? name with
  | none => .ok ()
  | some fault => .error fault

end Name

end HackVM
