/-!
# Bytes as text

File names are bytes, which need not be the encoding of a text. What is no text is shown with a
replacement character for each part that cannot be read: a part is as long as it could still have
become a character.
-/

namespace HackVM

/-- Bytes that may or may not be the UTF-8 encoding of a text. -/
abbrev RawText := List UInt8

namespace Text

/-- The bytes of a text. -/
def encode (text : String) : RawText :=
  text.toUTF8.data.toList

/-- The text that bytes encode, if they do. -/
def decode? (bytes : RawText) : Option String :=
  String.fromUTF8? ⟨bytes.toArray⟩

/-- The ranges of the bytes that must follow the first byte of an encoded character; a byte with which
no encoding starts has none. -/
def followers? (first : UInt8) : Option (List (UInt8 × UInt8)) :=
  let any : UInt8 × UInt8 := (0x80, 0xBF)
  if first < 0x80 then some []
  else if first < 0xC2 then none
  else if first < 0xE0 then some [any]
  else if first = 0xE0 then some [(0xA0, 0xBF), any]
  -- The code points from 0xD800 to 0xDFFF are no characters.
  else if first = 0xED then some [(0x80, 0x9F), any]
  else if first < 0xF0 then some [any, any]
  else if first = 0xF0 then some [(0x90, 0xBF), any, any]
  else if first < 0xF4 then some [any, any, any]
  else if first = 0xF4 then some [(0x80, 0x8F), any, any]
  else none

/-- Bytes being shown: the text so far, the bytes of a character that has begun, and the ranges of
those that it still needs. -/
structure Mending where
  shown : String
  begun : RawText
  needed : List (UInt8 × UInt8)

namespace Mending

/-- The replacement character. -/
def replacement : String := "\ufffd"

/-- Nothing shown yet. -/
def start : Mending := ⟨"", [], []⟩

/-- Gives up a character that has begun. -/
def abandon (mending : Mending) : Mending :=
  if mending.begun.isEmpty then mending else ⟨mending.shown ++ replacement, [], []⟩

/-- Adds a byte to the character that has begun, which then needs more, or is whole. -/
def extend (mending : Mending) (byte : UInt8) (needed : List (UInt8 × UInt8)) : Mending :=
  let begun := mending.begun ++ [byte]
  if needed.isEmpty then ⟨mending.shown ++ (decode? begun).getD replacement, [], []⟩
  else ⟨mending.shown, begun, needed⟩

/-- Takes a byte as the first one of a character. -/
def commence (mending : Mending) (byte : UInt8) : Mending :=
  match followers? byte with
  | some needed => mending.extend byte needed
  | none => ⟨mending.shown ++ replacement, [], []⟩

/-- Takes the next byte: as part of the character that has begun if it can be, and else as the first
one of another. -/
def next (mending : Mending) (byte : UInt8) : Mending :=
  match mending.needed with
  | (low, high) :: needed =>
    if low ≤ byte ∧ byte ≤ high then mending.extend byte needed else mending.abandon.commence byte
  | [] => mending.commence byte

end Mending

/-- How bytes are shown: as the text they encode, and else with replacement characters in it. -/
def shown (bytes : RawText) : String :=
  (decode? bytes).getD (bytes.foldl Mending.next .start).abandon.shown

/-- Bytes are decoded to the text whose encoding they are. -/
theorem decode?_eq_some_iff {bytes : RawText} {text : String} :
    decode? bytes = some text ↔ bytes = encode text := by
  constructor
  · intro h
    rw [decode?, String.fromUTF8?] at h
    split at h
    · cases h
      rfl
    · cases h
  · rintro rfl
    rw [decode?, encode, Array.toArray_toList]
    exact dif_pos text.isValidUTF8

/-- A text is shown as it is. -/
theorem shown_encode (text : String) : shown (encode text) = text := by
  rw [shown, decode?_eq_some_iff.mpr rfl, Option.getD_some]

end Text

end HackVM
