import Mathlib
import HackVM.Instruction.Printer

/-!
# Writing code

Code is written in pieces, wherever it is written to. A `Sink` does not show where the pieces end, so writing
code to it comes to one write of its text (`Sink.print_code`). A place without a limit is a sink, and so is a
buffer, although writing stops inside the first piece that does not fit: texts put one after the other are
stored as the one text they make, cut at the same byte (`Writing.put_append`).
-/

namespace HackVM

/-- A place that texts are written to, for which only the text counts that they make together. -/
structure Sink {m : Type → Type} [Monad m] (put : String → m Unit) : Prop where
  empty : put "" = pure ()
  append : ∀ first second, put (first ++ second) = do put first; put second

namespace Sink

variable {m : Type → Type} [Monad m] {put : String → m Unit}

/-- A text that is left out is written as the empty one. -/
lemma put_ite (sink : Sink put) (out : Prop) [Decidable out] (text : String) :
    put (if out then "" else text) = if out then pure () else put text := by
  split_ifs
  · exact sink.empty
  · rfl

/-- The pieces of an instruction are written as its text is. -/
lemma print_instruction [LawfulMonad m] (sink : Sink put) (instruction : Instruction) :
    instruction.print put = put instruction.text := by
  cases instruction with
  | load operand =>
    rw [Instruction.text, sink.append]
    rfl
  | label name =>
    rw [Instruction.text, sink.append, sink.append, bind_assoc]
    rfl
  | compute dest comp jump =>
    rw [Instruction.text, sink.append, sink.append, sink.put_ite, sink.put_ite, sink.append, sink.append,
      bind_assoc, Instruction.print]
    by_cases still : dest = .nowhere
    · rw [if_pos still, if_pos still, pure_bind]
    · rw [if_neg still, if_neg still, bind_assoc]

/-- The lines of code are written as its text is. -/
lemma print_code [LawfulMonad m] (sink : Sink put) (code : Code) : code.print put = put code.text := by
  induction code with
  | nil => exact sink.empty.symm
  | cons first rest ih =>
    rw [Code.print, sink.print_instruction, ih, Code.text_cons, sink.append, sink.append, bind_assoc]

end Sink

/-- A place without a limit takes pieces as the text they make. -/
lemma Collecting.sink_put : Sink Collecting.put where
  empty := by
    funext bytes
    show ((), bytes ++ ByteArray.empty) = ((), bytes)
    rw [ByteArray.append_empty]
  append first second := by
    funext bytes
    show ((), bytes ++ (first ++ second).toUTF8) = ((), bytes ++ first.toUTF8 ++ second.toUTF8)
    rw [ByteArray.append_assoc]
    exact congrArg (fun both => ((), bytes ++ both)) String.toByteArray_append

/-- Code that is written without a limit leaves its text. -/
lemma Code.bytes_eq (code : Code) : code.bytes = code.text.toUTF8 := by
  rw [bytes, Collecting.sink_put.print_code]
  exact ByteArray.empty_append

namespace Buffer

variable {buffer : Buffer} {text : String}

/-- A text that fits is stored whole. -/
lemma write_of_le (fits : text.toUTF8.size ≤ buffer.room) :
    buffer.write text = (⟨buffer.bytes ++ text.toUTF8, buffer.room - text.toUTF8.size⟩, .ok ()) :=
  if_pos fits

/-- Of a text that does not fit, the first bytes are stored. -/
lemma write_of_lt (cut : buffer.room < text.toUTF8.size) :
    buffer.write text =
      (⟨buffer.bytes ++ text.toUTF8.extract 0 buffer.room, 0⟩, .error .bufferFull) :=
  if_neg (Nat.not_le.mpr cut)

end Buffer

namespace Writing

variable {buffer : Buffer}

/-- Putting a text that fits goes on. -/
lemma run_put_of_le (text : String) (fits : text.toUTF8.size ≤ buffer.room) :
    (put text).run buffer =
      .ok () ⟨buffer.bytes ++ text.toUTF8, buffer.room - text.toUTF8.size⟩ := by
  show put text buffer = _
  rw [put, Buffer.write_of_le fits]

/-- Putting a text that does not fit stops. -/
lemma run_put_of_lt (text : String) (cut : buffer.room < text.toUTF8.size) :
    (put text).run buffer =
      .error .bufferFull ⟨buffer.bytes ++ text.toUTF8.extract 0 buffer.room, 0⟩ := by
  show put text buffer = _
  rw [put, Buffer.write_of_lt cut]

/-- Putting nothing does nothing. -/
lemma put_empty : put "" = pure () := by
  apply EStateM.ext
  intro buffer
  rw [run_put_of_le "" (Nat.zero_le _)]
  show EStateM.Result.ok () (⟨buffer.bytes ++ ByteArray.empty, buffer.room⟩ : Buffer) = _
  rw [ByteArray.append_empty]
  rfl

/-- Texts put one after the other are stored as the one text they make. -/
lemma put_append (first second : String) :
    put (first ++ second) = (do put first; put second) := by
  have bytes : (first ++ second).toUTF8 = first.toUTF8 ++ second.toUTF8 := String.toByteArray_append
  have size : (first ++ second).toUTF8.size = first.toUTF8.size + second.toUTF8.size := by
    rw [bytes, ByteArray.size_append]
  apply EStateM.ext
  intro buffer
  rw [EStateM.run_bind]
  rcases Nat.lt_or_ge buffer.room first.toUTF8.size with cut | fits
  · -- The whole is cut inside the first text, so the second adds nothing to it.
    have front : (first ++ second).toUTF8.extract 0 buffer.room =
        first.toUTF8.extract 0 buffer.room := by
      rw [bytes, ByteArray.extract_append, Nat.sub_eq_zero_of_le (Nat.le_of_lt cut), Nat.zero_sub,
        ByteArray.extract_same, ByteArray.append_empty]
    rw [run_put_of_lt first cut, run_put_of_lt (first ++ second) (by omega), front]
  · rw [run_put_of_le first fits]
    dsimp only
    rcases Nat.lt_or_ge (buffer.room - first.toUTF8.size) second.toUTF8.size with cut | fits'
    · have whole : first.toUTF8.extract 0 buffer.room = first.toUTF8 := by
        rw [← Nat.max_eq_left fits, ByteArray.extract_zero_max_size]
      rw [run_put_of_lt second cut, run_put_of_lt (first ++ second) (by omega), bytes,
        ByteArray.extract_append, whole, Nat.zero_sub, ByteArray.append_assoc]
    · rw [run_put_of_le second fits', run_put_of_le (first ++ second) (by omega), bytes,
        ByteArray.size_append, ByteArray.append_assoc, Nat.sub_sub]

/-- A buffer takes pieces as the text they make. -/
lemma sink_put : Sink put := ⟨put_empty, put_append⟩

end Writing

namespace Code

/-- Code is written as its text is written at once. -/
lemma write_eq (code : Code) (buffer : Buffer) : code.write buffer = buffer.write code.text := by
  rw [write, Writing.sink_put.print_code]
  rcases Nat.lt_or_ge buffer.room code.text.toUTF8.size with cut | fits
  · rw [Writing.run_put_of_lt _ cut, Buffer.write_of_lt cut]
  · rw [Writing.run_put_of_le _ fits, Buffer.write_of_le fits]

/-- Code that is written into a buffer with room for a number of bytes leaves that many of the first bytes
of its text there, or all of them if there are fewer, whatever symbols it has and wherever the text is cut.
Writing succeeds exactly when the whole text fits. -/
theorem write_stores_prefix (code : Code) (limit : Nat) :
    (code.write (.empty limit)).1.bytes =
        code.text.toUTF8.extract 0 (min limit code.text.toUTF8.size) ∧
      ((code.write (.empty limit)).2 = .ok () ↔ code.text.toUTF8.size ≤ limit) := by
  rw [write_eq]
  rcases Nat.lt_or_ge limit code.text.toUTF8.size with cut | fits
  · rw [Buffer.write_of_lt cut, min_eq_left (Nat.le_of_lt cut)]
    constructor
    · exact ByteArray.empty_append
    · exact iff_of_false (by simp) (Nat.not_le.mpr cut)
  · rw [Buffer.write_of_le fits, min_eq_right fits, ByteArray.extract_zero_size]
    constructor
    · exact ByteArray.empty_append
    · exact iff_of_true rfl fits

-- The text is cut inside the second of its characters.
example : (write [.label "é"] (.empty 2)).1.bytes = ⟨#[40, 195]⟩ := by decide +kernel

end Code

end HackVM
