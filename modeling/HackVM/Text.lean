/-!
# Text

Cutting text into lines at newlines, a line into words at blanks and a comment off its line, and
reading decimal numerals. A blank is a character with the property White_Space of the Unicode
standard.
-/

namespace HackVM.Text

/-- The code points of blanks, as ranges with both ends included. -/
def blankRanges : List (Nat × Nat) :=
  [(0x9, 0xD), (0x20, 0x20), (0x85, 0x85), (0xA0, 0xA0), (0x1680, 0x1680), (0x2000, 0x200A),
    (0x2028, 0x2029), (0x202F, 0x202F), (0x205F, 0x205F), (0x3000, 0x3000)]

/-- Whether a character separates words. -/
def isBlank (c : Char) : Bool :=
  blankRanges.any fun (first, last) => first ≤ c.toNat && c.toNat ≤ last

/-- Puts an item in front of the first of some pieces, or starts a new piece at it. -/
def extendPieces {α : Type} (isEnd : α → Bool) (item : α) : List (List α) → List (List α)
  | [] => [[item]]
  | piece :: more => if isEnd item then [] :: piece :: more else (item :: piece) :: more

/-- The pieces of a text between the items that `isEnd` picks out, empty pieces included. -/
def pieces {α : Type} (isEnd : α → Bool) (text : List α) : List (List α) :=
  text.foldr (extendPieces isEnd) [[]]

/-- The lines of a text; what follows the last newline is a line too. -/
def lines (text : List Char) : List (List Char) :=
  pieces (· == '\n') text

/-- The words of a line. -/
def words (line : List Char) : List (List Char) :=
  (pieces isBlank line).filter fun word => !word.isEmpty

/-- The part of a line before its comment, which starts at the first `//`. -/
def withoutComment : List Char → List Char
  | '/' :: '/' :: _ => []
  | c :: rest => c :: withoutComment rest
  | [] => []

/-- The value of a run of decimal digits, most significant first. -/
def digitsValue (digits : List Char) : Nat :=
  digits.foldl (fun value digit => 10 * value + (digit.toNat - '0'.toNat)) 0

/-- Reads a numeral without a sign: one or more ASCII digits. -/
def readDigits? (word : List Char) : Option Nat :=
  if !word.isEmpty && word.all Char.isDigit then some (digitsValue word) else none

/-- Reads a numeral that may have a plus sign in front. -/
def readNat? : List Char → Option Nat
  | '+' :: word => readDigits? word
  | word => readDigits? word

/-- Reads a numeral whose value fits sixteen bits. -/
def readWord? (word : List Char) : Option UInt16 :=
  (readNat? word).bind fun value =>
    if value < UInt16.size then some (UInt16.ofNat value) else none

end HackVM.Text
