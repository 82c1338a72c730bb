import Mathlib
import HackVM.Proofs.Reading

/-!
# Writing commands and reading them again

A text that has characters, no blank and no `//` stands as one word on a line, and the words of any line
are such texts. So the lines that commands are written to are read as these commands exactly if every
name in them is a word, and what was read from any text can be written and read again.
-/

namespace HackVM

namespace Text

/-- A text that stands as one word on a line. -/
structure IsWord (word : String) : Prop where
  nonempty : word ≠ ""
  unbroken : ∀ c ∈ word.toList, isBlank c = false
  uncommented : ¬ ['/', '/'] <:+: word.toList

/-- A line without a comment is left as it is. -/
lemma uncommented_eq_self {line : List Char} (h : ¬ ['/', '/'] <:+: line) :
    uncommented line = line := by
  rw [← withoutComment_eq_uncommented]
  fun_induction withoutComment line with
  | case1 rest => exact absurd ⟨[], rest, rfl⟩ h
  | case2 c rest _ ih =>
    apply congrArg (c :: ·)
    apply ih
    exact fun found => h (List.infix_cons_iff.mpr (.inr found))
  | case3 => rfl

/-- What is left of a line is its beginning. -/
lemma uncommented_prefix (line : List Char) : uncommented line <+: line :=
  List.take_prefix _ _

/-- What is left of a line has no comment. -/
lemma not_infix_uncommented (line : List Char) : ¬ ['/', '/'] <:+: uncommented line := by
  rw [← withoutComment_eq_uncommented]
  fun_induction withoutComment line with
  | case1 rest => simp
  | case2 c rest goes_on ih =>
    intro found
    rcases List.infix_cons_iff.mp found with ⟨behind, e⟩ | found
    · -- The two slashes would stand at the head of the line itself.
      obtain ⟨rfl, tail⟩ := List.cons.inj e
      obtain ⟨more, rest_eq⟩ := uncommented_prefix rest
      rw [← withoutComment_eq_uncommented, ← tail] at rest_eq
      exact goes_on (behind ++ more) rfl rest_eq.symm
    · exact ih found
  | case3 => simp

/-- A comment that starts in a line of words starts in one of them. -/
lemma not_infix_intercalate {words : List (List Char)} (h : ∀ word ∈ words, ¬ ['/', '/'] <:+: word) :
    ¬ ['/', '/'] <:+: [' '].intercalate words := by
  induction words with
  | nil => simp
  | cons word rest ih =>
    have first := h word List.mem_cons_self
    have ih := ih fun other ho => h other (.tail _ ho)
    cases rest with
    | nil =>
      rw [List.intercalate_singleton]
      exact first
    | cons next rest =>
      rw [List.intercalate_cons_cons, List.append_assoc, List.singleton_append]
      intro found
      rcases List.infix_append_iff.mp found with inside | behind | ⟨left, right, e, ends, begins⟩
      · exact first inside
      · rcases List.infix_cons_iff.mp behind with ⟨more, e⟩ | later
        · cases e
        · exact ih later
      · -- Two slashes that meet at the blank: one of the parts is empty, since a blank is no slash.
        cases right with
        | nil =>
          rw [List.append_nil] at e
          exact first (e ▸ ends.isInfix)
        | cons c right =>
          obtain ⟨more, e'⟩ := begins
          obtain ⟨rfl, -⟩ := List.cons.inj e'
          have slash : ' ' ∈ ['/', '/'] := e ▸ List.mem_append_right left List.mem_cons_self
          exact absurd slash (by decide)

/-- A character on a line of words is a blank between them or part of one. -/
lemma mem_intercalate {words : List (List Char)} {c : Char} (h : c ∈ [' '].intercalate words) :
    c = ' ' ∨ ∃ word ∈ words, c ∈ word := by
  induction words with
  | nil => cases h
  | cons word rest ih =>
    cases rest with
    | nil =>
      rw [List.intercalate_singleton] at h
      exact .inr ⟨word, List.mem_cons_self, h⟩
    | cons next rest =>
      rw [List.intercalate_cons_cons, List.append_assoc, List.mem_append, List.singleton_append,
        List.mem_cons] at h
      rcases h with here | blank | later
      · exact .inr ⟨word, List.mem_cons_self, here⟩
      · exact .inl blank
      · rcases ih later with blank | ⟨other, ho, inside⟩
        · exact .inl blank
        · exact .inr ⟨other, .tail _ ho, inside⟩

/-- Words without blanks are what a line of them is split into. -/
lemma splitOnP_intercalate {words : List (List Char)} (nonempty : words ≠ [])
    (h : ∀ word ∈ words, ∀ c ∈ word, isBlank c = false) :
    ([' '].intercalate words).splitOnP isBlank = words := by
  induction words with
  | nil => exact absurd rfl nonempty
  | cons word rest ih =>
    have first := List.splitOnP_eq_singleton (h word List.mem_cons_self)
    cases rest with
    | nil =>
      rw [List.intercalate_singleton]
      exact first
    | cons next rest =>
      have ih := ih (List.cons_ne_nil _ _) fun other ho => h other (.tail _ ho)
      rw [List.intercalate_cons_cons, List.append_assoc, List.singleton_append,
        List.splitOnP_append_cons _ _ (by decide), first, ih]
      rfl

/-- Words that are written on a line are the words of that line. -/
lemma lineWords_intercalate {words : List String} (h : ∀ word ∈ words, IsWord word) :
    lineWords (" ".intercalate words).toList = words := by
  have uncommented : ∀ word ∈ words.map String.toList, ¬ ['/', '/'] <:+: word :=
    List.forall_mem_map.mpr fun word hw => (h word hw).uncommented
  have unbroken : ∀ word ∈ words.map String.toList, ∀ c ∈ word, isBlank c = false :=
    List.forall_mem_map.mpr fun word hw => (h word hw).unbroken
  have nonempty : ∀ word ∈ words.map String.toList, decide (word ≠ []) = true := by
    intro chars hc
    obtain ⟨word, hw, rfl⟩ := List.mem_map.mp hc
    have some : word ≠ "" := (h word hw).nonempty
    simpa using some
  cases words with
  | nil => rfl
  | cons word rest =>
    rw [lineWords, String.toList_intercalate]
    show (((Text.uncommented ([' '].intercalate _)).splitOnP isBlank).filter (· ≠ [])).map _ = _
    rw [uncommented_eq_self (not_infix_intercalate uncommented),
      splitOnP_intercalate (by simp) unbroken, List.filter_eq_self.mpr nonempty, List.map_map]
    have same : String.ofList ∘ String.toList = id := funext fun word => String.ofList_toList
    rw [same, List.map_id]

/-- A piece of a line between separators is part of the line and has no separator. -/
lemma piece_of_mem_splitOnP {isEnd : Char → Bool} {line piece : List Char}
    (h : piece ∈ line.splitOnP isEnd) : piece <:+: line ∧ ∀ c ∈ piece, isEnd c = false := by
  -- The first piece is moreover a prefix, since characters are added to it in front.
  suffices ∃ first more, line.splitOnP isEnd = first :: more ∧ first <+: line ∧
      ∀ piece ∈ first :: more, piece <:+: line ∧ ∀ c ∈ piece, isEnd c = false by
    obtain ⟨first, more, e, -, pieces⟩ := this
    exact pieces piece (e ▸ h)
  clear h
  induction line with
  | nil => exact ⟨[], [], rfl, List.prefix_refl _, by simp⟩
  | cons c rest ih =>
    obtain ⟨first, more, e, begins, pieces⟩ := ih
    have later : ∀ piece ∈ first :: more,
        piece <:+: c :: rest ∧ ∀ c ∈ piece, isEnd c = false := by
      intro piece hp
      obtain ⟨inside, free⟩ := pieces piece hp
      exact ⟨List.infix_cons inside, free⟩
    rw [List.splitOnP_cons_eq_if_modifyHead, e]
    by_cases ends : isEnd c = true
    · rw [if_pos ends]
      refine ⟨[], first :: more, rfl, List.nil_prefix, List.forall_mem_cons.mpr ⟨?_, later⟩⟩
      exact ⟨List.nil_infix, by simp⟩
    · rw [if_neg ends]
      have begins : c :: first <+: c :: rest := List.cons_prefix_cons.mpr ⟨rfl, begins⟩
      refine ⟨c :: first, more, rfl, begins, List.forall_mem_cons.mpr ⟨⟨begins.isInfix, ?_⟩, ?_⟩⟩
      · intro d hd
        rcases List.mem_cons.mp hd with rfl | hd
        · exact Bool.eq_false_iff.mpr ends
        · exact (pieces first List.mem_cons_self).2 d hd
      · exact fun piece hp => later piece (.tail _ hp)

/-- The words of a line are words. -/
lemma isWord_of_mem_lineWords {line : List Char} {word : String} (h : word ∈ lineWords line) :
    IsWord word := by
  obtain ⟨piece, hp, rfl⟩ := List.mem_map.mp h
  obtain ⟨cut, some⟩ := List.mem_filter.mp hp
  obtain ⟨inside, unbroken⟩ := piece_of_mem_splitOnP cut
  refine ⟨?_, ?_, ?_⟩
  · intro e
    have empty : piece = [] := by simpa using congrArg String.toList e
    exact absurd empty (of_decide_eq_true some)
  · rw [String.toList_ofList]
    exact unbroken
  · rw [String.toList_ofList]
    exact fun found => not_infix_uncommented line (found.trans inside)

/-- The decimal numeral of a number stands for it. -/
lemma denotes_repr (number : UInt16) : Denotes (Nat.repr number.toNat) number := by
  refine ⟨Nat.toDigits 10 number.toNat, Nat.toDigits_ne_nil, ?_, .inl Nat.toList_repr, ?_⟩
  · exact fun c hc => Nat.isDigit_of_mem_toDigits (by decide) (by decide) hc
  · rw [← digitsValue_eq_ofDigits]
    exact Nat.ofDigitChars_ten_toDigits.symm

/-- Letters, digits and hyphens stand far from all blanks. -/
lemma isWord_of_chars {word : String} (nonempty : word ≠ "")
    (chars : ∀ c ∈ word.toList, c.isAlphanum = true ∨ c = '-') : IsWord word := by
  refine ⟨nonempty, ?_, ?_⟩
  · intro c hc
    have bounds : 45 ≤ c.toNat ∧ c.toNat ≤ 122 := by
      rcases chars c hc with letter | rfl
      · simp [Char.isAlphanum, Char.isAlpha, Char.isUpper, Char.isLower, Char.isDigit,
          UInt32.le_iff_toNat_le] at letter
        have same : c.val.toNat = c.toNat := rfl
        omega
      · decide
    simp [isBlank, blankRanges]
    omega
  · intro found
    have slash := chars '/' (found.subset List.mem_cons_self)
    exact absurd slash (by decide)

/-- The decimal numeral of a number is a word. -/
lemma isWord_repr (n : Nat) : IsWord (Nat.repr n) := by
  apply isWord_of_chars
  · intro e
    have empty : Nat.toDigits 10 n = [] := by
      simpa [Nat.toList_repr] using congrArg String.toList e
    exact Nat.toDigits_ne_nil empty
  · intro c hc
    rw [Nat.toList_repr] at hc
    have digit := Nat.isDigit_of_mem_toDigits (by decide) (by decide) hc
    simp [Char.isAlphanum, digit]

end Text

namespace Command

/-- The name in a command: that of a label, of a function or of a callee. -/
def name? : Command → Option String
  | .label name | .goto name | .ifGoto name | .function name _ | .call name _ => some name
  | .push .. | .pop .. | .operate _ | .ret => none

/-- A command that can be written: its name, if it has one, is a word. -/
def Writable (command : Command) : Prop :=
  ∀ name ∈ command.name?, Text.IsWord name

/-- Every keyword of command text is a word. -/
lemma isWord_keyword {word : String} (h : word ∈ ["push", "pop", "label", "goto", "if-goto", "function",
    "call", "return"] ++ Operation.all.map Operation.keyword ++ Segment.all.map Segment.keyword) :
    Text.IsWord word := by
  have plain : ((["push", "pop", "label", "goto", "if-goto", "function", "call", "return"] ++
      Operation.all.map Operation.keyword ++ Segment.all.map Segment.keyword).all fun word =>
      word != "" && word.toList.all fun c => c.isAlphanum || c == '-') = true := by
    decide +kernel
  obtain ⟨nonempty, chars⟩ := Bool.and_eq_true_iff.mp (List.all_eq_true.mp plain word h)
  refine Text.isWord_of_chars (bne_iff_ne.mp nonempty) fun c hc => ?_
  simpa using List.all_eq_true.mp chars c hc

/-- The first word of a command is a word. -/
lemma isWord_kind (command : Command) : Text.IsWord command.kind := by
  apply isWord_keyword
  cases command with
  | operate operation =>
    cases operation with
    | compare comparison => cases comparison <;> decide
    | _ => decide
  | _ => simp [kind]

/-- The words of a command that can be written are words. -/
lemma Writable.isWord_words {command : Command} (h : command.Writable) :
    ∀ word ∈ command.words, Text.IsWord word := by
  have segment : ∀ segment : Segment, Text.IsWord segment.keyword := by
    intro segment
    apply isWord_keyword
    cases segment <;> decide
  rw [words.eq_def, List.forall_mem_cons]
  refine ⟨command.isWord_kind, ?_⟩
  cases command with
  | push name index | pop name index =>
    simpa using ⟨segment name, Text.isWord_repr index.toNat⟩
  | label name | goto name | ifGoto name => simpa using h name rfl
  | function name count | call name count =>
    simpa using ⟨h name rfl, Text.isWord_repr count.toNat⟩
  | operate operation | ret => simp

/-- A command that can be written has its words on its line. -/
lemma Writable.lineWords_text {command : Command} (h : command.Writable) :
    Text.lineWords command.text.toList = command.words :=
  Text.lineWords_intercalate h.isWord_words

/-- The words of a command make it up. -/
lemma form_words (command : Command) : Form command.words command := by
  cases command with
  | push segment index => exact .push (Segment.called_iff.mpr rfl) (Text.denotes_repr index)
  | pop segment index => exact .pop (Segment.called_iff.mpr rfl) (Text.denotes_repr index)
  | operate operation => exact .operate (Operation.called_iff.mpr rfl)
  | label name => exact .label name
  | goto name => exact .goto name
  | ifGoto name => exact .ifGoto name
  | function name count => exact .function name (Text.denotes_repr count)
  | call name count => exact .call name (Text.denotes_repr count)
  | ret => exact .ret

/-- A command that is made up of words can be written. -/
lemma Form.writable {words : List String} {command : Command} (form : Form words command)
    (h : ∀ word ∈ words, Text.IsWord word) : command.Writable := by
  intro name hn
  apply h
  cases form with
  | label | goto | ifGoto | function | call =>
    obtain rfl := Option.some.inj hn
    simp
  | _ => cases hn

end Command

namespace SourceUnit

/-- The text that commands are written to, one on a line. -/
def text (commands : List Command) : String :=
  "\n".intercalate (commands.map Command.text)

/-- A command that can be written stands on one line. -/
lemma newline_notMem_text {command : Command} (h : command.Writable) :
    '\n' ∉ command.text.toList := by
  intro found
  rw [Command.text, String.toList_intercalate] at found
  rcases Text.mem_intercalate found with blank | ⟨chars, hc, inside⟩
  · exact absurd blank (by decide)
  · obtain ⟨word, hw, rfl⟩ := List.mem_map.mp hc
    exact absurd ((h.isWord_words word hw).unbroken _ inside) (by decide)

/-- The lines that commands are written to have the words of the commands. -/
lemma wordLines_text {commands : List Command} (h : ∀ command ∈ commands, command.Writable) :
    (Text.wordLines (text commands)).filter (· ≠ []) = commands.map Command.words := by
  cases commands with
  | nil => rfl
  | cons command rest =>
    have unbroken : ∀ line ∈ ((command :: rest).map Command.text).map String.toList, '\n' ∉ line := by
      rw [List.map_map]
      exact List.forall_mem_map.mpr fun other ho => newline_notMem_text (h other ho)
    have lines : (text (command :: rest)).toList.splitOn '\n' =
        ((command :: rest).map Command.text).map String.toList := by
      rw [text, String.toList_intercalate]
      exact List.splitOn_intercalate _ unbroken (by simp)
    have words : Text.wordLines (text (command :: rest)) = (command :: rest).map Command.words := by
      rw [Text.wordLines, lines, List.map_map, List.map_map]
      exact List.map_congr_left fun other ho => (h other ho).lineWords_text
    rw [words]
    apply List.filter_eq_self.mpr
    exact List.forall_mem_map.mpr fun other _ => by simp [Command.words]

/-- Commands that can be written are read again. -/
lemma read_text {name : String} {commands : List Command}
    (h : ∀ command ∈ commands, command.Writable) :
    read name (text commands) = .ok ⟨name, commands⟩ := by
  apply read_eq_ok_iff.mpr
  refine ⟨rfl, ?_⟩
  rw [wordLines_text h]
  apply List.forall₂_map_left_iff.mpr
  exact List.forall₂_same.mpr fun command _ => command.form_words

/-- Commands that were read can be written. -/
lemma writable_of_read {name source : String} {unit : SourceUnit}
    (h : read name source = .ok unit) : ∀ command ∈ unit.commands, command.Writable := by
  obtain ⟨-, forms⟩ := read_eq_ok_iff.mp h
  have words : ∀ words ∈ (Text.wordLines source).filter (· ≠ []),
      ∀ word ∈ words, Text.IsWord word := by
    intro words hw
    obtain ⟨line, -, rfl⟩ := List.mem_map.mp (List.mem_of_mem_filter hw)
    exact fun word => Text.isWord_of_mem_lineWords
  generalize (Text.wordLines source).filter (· ≠ []) = lines at forms words
  generalize unit.commands = commands at forms
  induction forms with
  | nil => simp
  | cons form _ ih =>
    obtain ⟨first, rest⟩ := List.forall_mem_cons.mp words
    exact List.forall_mem_cons.mpr ⟨form.writable first, ih rest⟩

/-- Commands that are written one on a line are read as they were exactly if every name in them has
characters, no blank and no `//`. Whatever is read has such names, so writing it and reading it again gives
the same unit. -/
theorem read_written_again (name : String) :
    (∀ commands, read name (text commands) = .ok ⟨name, commands⟩ ↔
        ∀ command ∈ commands, command.Writable) ∧
      ∀ source unit, read name source = .ok unit →
        (∀ command ∈ unit.commands, command.Writable) ∧
          read name (text unit.commands) = .ok unit := by
  constructor
  · intro commands
    exact ⟨fun h => writable_of_read h, read_text⟩
  · intro source unit h
    have writable := writable_of_read h
    obtain ⟨rfl, -⟩ := read_eq_ok_iff.mp h
    exact ⟨writable, read_text writable⟩

/-- Commands whose names look like other parts of command text. -/
def masked : List Command :=
  [.function "push" 65535, .label "/", .goto "a/b/", .ifGoto "+7", .call "if-goto" 0,
    .push .statics 7, .ret]

/-- The masked commands are read as they were written, a name with `//` in it is not, and a text with a
comment, blanks and a long numeral is read again from what it was read as. -/
theorem masked_read_written_again :
    (∀ command ∈ masked, command.Writable) ∧
      read "Main" (text masked) = .ok ⟨"Main", masked⟩ ∧
      read "Main" (text [.label "a//b"]) ≠ .ok ⟨"Main", [.label "a//b"]⟩ ∧
      ∃ unit, read "Main" "label a/b // c\n\n  push\tconstant +007" = .ok unit ∧
        unit.commands = [.label "a/b", .push .constant 7] ∧
        read "Main" (text unit.commands) = .ok unit := by
  obtain ⟨written, again⟩ := read_written_again "Main"
  have names : ∀ name ∈ masked.filterMap Command.name?, Text.IsWord name := by
    have plain : ∀ name ∈ masked.filterMap Command.name?, name ≠ "" ∧
        (∀ c ∈ name.toList, Text.isBlank c = false) ∧ ¬ ['/', '/'] <:+: name.toList := by
      simp [masked, Command.name?, Text.isBlank, Text.blankRanges, List.infix_cons_iff]
    intro name hn
    obtain ⟨nonempty, unbroken, uncommented⟩ := plain name hn
    exact ⟨nonempty, unbroken, uncommented⟩
  have writable : ∀ command ∈ masked, command.Writable :=
    fun command hc name hn => names name (List.mem_filterMap.mpr ⟨command, hc, hn⟩)
  have first : read "Main" "label a/b // c\n\n  push\tconstant +007" =
      .ok ⟨"Main", [.label "a/b", .push .constant 7]⟩ := by
    cbv
  refine ⟨writable, (written masked).mpr writable, ?_, _, first, rfl, (again _ _ first).2⟩
  intro h
  have word := (written _).mp h (.label "a//b") List.mem_cons_self "a//b" rfl
  exact word.uncommented ⟨['a'], ['b'], rfl⟩

end SourceUnit

end HackVM
