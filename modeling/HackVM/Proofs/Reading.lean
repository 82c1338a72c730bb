import Mathlib
import HackVM.Command.Reader
import HackVM.Proofs.Lowering

/-!
# Which texts are read

The grammar of command text: a unit is cut into lines at newlines, a line is cut at its comment and then
into words at blanks, and the words of a line that has any take one of the forms of a command. Reading
accepts exactly the texts of this grammar, with one command for each line that has words. In front of
anything else it stops at the first line that has words and no form, and reports its number.
-/

namespace HackVM

namespace Text

/-- The part of a line in front of its first `//`. -/
def uncommented (line : List Char) : List Char :=
  line.take (line.tails.findIdx fun rest => ['/', '/'].isPrefixOf rest)

/-- The words of a line: the runs of characters between blanks, in front of its comment. -/
def lineWords (line : List Char) : List String :=
  (((uncommented line).splitOnP isBlank).filter (· ≠ [])).map String.ofList

/-- The words of the lines of a text. -/
def wordLines (text : String) : List (List String) :=
  (text.toList.splitOn '\n').map lineWords

/-- A word stands for a number: it has ASCII digits, perhaps behind a plus sign. As the number has
sixteen bits, so has the value of the digits. -/
def Denotes (word : String) (number : UInt16) : Prop :=
  ∃ digits : List Char, digits ≠ [] ∧ (∀ c ∈ digits, c.isDigit = true) ∧
    (word.toList = digits ∨ word.toList = '+' :: digits) ∧
    number.toNat = Nat.ofDigits 10 (digits.reverse.map fun c => c.toNat - '0'.toNat)

/-- The pieces of a text are those that it is split into. -/
lemma pieces_eq_splitOnP {α : Type} (isEnd : α → Bool) (text : List α) :
    pieces isEnd text = text.splitOnP isEnd := by
  induction text with
  | nil => rfl
  | cons c rest ih =>
    have unfolded : pieces isEnd (c :: rest) = extendPieces isEnd c (pieces isEnd rest) := rfl
    rw [unfolded, ih, List.splitOnP_cons_eq_if_modifyHead]
    cases e : rest.splitOnP isEnd with
    | nil => exact absurd e (List.splitOnP_ne_nil _ _)
    | cons piece more => rfl

/-- The pieces of a text between the occurrences of one item. -/
lemma pieces_eq_splitOn {α : Type} [BEq α] (separator : α) (text : List α) :
    pieces (· == separator) text = text.splitOn separator :=
  pieces_eq_splitOnP _ _

/-- The lines of a text stand between its newlines. -/
lemma lines_eq_splitOn (text : List Char) : lines text = text.splitOn '\n' :=
  pieces_eq_splitOn _ _

/-- What is left of a line without its comment stands in front of the first two slashes. -/
lemma withoutComment_eq_uncommented (line : List Char) :
    withoutComment line = uncommented line := by
  rw [uncommented]
  fun_induction withoutComment line with
  | case1 rest => rfl
  | case2 c rest goes_on ih =>
    have miss : ['/', '/'].isPrefixOf (c :: rest) = false := by
      rw [Bool.eq_false_iff, ne_eq, List.isPrefixOf_iff_prefix]
      rintro ⟨behind, e⟩
      obtain ⟨rfl, tail⟩ := List.cons.inj e
      exact goes_on behind rfl tail.symm
    rw [List.tails_cons, List.findIdx_cons, miss, cond_false, List.take_succ_cons, ih]
  | case3 => rfl

/-- The words of a line are those in front of its comment. -/
lemma map_words_withoutComment (line : List Char) :
    (words (withoutComment line)).map String.ofList = lineWords line := by
  rw [lineWords, words, withoutComment_eq_uncommented, pieces_eq_splitOnP]
  congr 2
  funext word
  cases word <;> rfl

/-- The value of digits is that of the numeral in base ten. -/
lemma digitsValue_eq_ofDigits (digits : List Char) :
    digitsValue digits =
      Nat.ofDigits 10 (digits.reverse.map fun c => c.toNat - '0'.toNat) := by
  induction digits using List.reverseRecOn with
  | nil => rfl
  | append_singleton front digit ih =>
    rw [digitsValue, List.foldl_append, ← digitsValue, ih, List.reverse_append,
      List.reverse_singleton, List.singleton_append, List.map_cons, Nat.ofDigits_cons, Nat.add_comm]
    rfl

/-- Digits are read exactly if there are some and there is nothing else. -/
lemma readDigits?_eq_some_iff {word : List Char} {value : Nat} :
    readDigits? word = some value ↔
      word ≠ [] ∧ (∀ c ∈ word, c.isDigit = true) ∧ digitsValue word = value := by
  rw [readDigits?]
  split_ifs with h
  · simp_all
  · simp_all

/-- A numeral is read exactly if it has digits, perhaps behind a plus sign. -/
lemma readNat?_eq_some_iff {word : List Char} {value : Nat} :
    readNat? word = some value ↔ ∃ digits : List Char, digits ≠ [] ∧
      (∀ c ∈ digits, c.isDigit = true) ∧ (word = digits ∨ word = '+' :: digits) ∧
      value = Nat.ofDigits 10 (digits.reverse.map fun c => c.toNat - '0'.toNat) := by
  fun_cases readNat? word with
  | case1 rest =>
    rw [readDigits?_eq_some_iff, digitsValue_eq_ofDigits]
    constructor
    · rintro ⟨nonempty, all, rfl⟩
      exact ⟨rest, nonempty, all, .inr rfl, rfl⟩
    · rintro ⟨digits, nonempty, all, rfl | e, rfl⟩
      · exact absurd (all '+' List.mem_cons_self) (by decide)
      · cases e
        exact ⟨nonempty, all, rfl⟩
  | case2 word unsigned =>
    rw [readDigits?_eq_some_iff, digitsValue_eq_ofDigits]
    constructor
    · rintro ⟨nonempty, all, rfl⟩
      exact ⟨word, nonempty, all, .inl rfl, rfl⟩
    · rintro ⟨digits, nonempty, all, rfl | rfl, rfl⟩
      · exact ⟨nonempty, all, rfl⟩
      · exact absurd rfl (unsigned digits)

/-- The numerals that are read are the words that stand for numbers. -/
lemma readWord?_eq_some_iff {word : String} {number : UInt16} :
    readWord? word.toList = some number ↔ Denotes word number := by
  have fits : ∀ value, (if value < UInt16.size then some (UInt16.ofNat value) else none) =
      some number ↔ number.toNat = value := by
    intro value
    constructor
    · intro h
      split_ifs at h with below
      cases h
      exact UInt16.toNat_ofNat_of_lt' below
    · rintro rfl
      rw [if_pos number.toNat_lt, UInt16.ofNat_toNat]
  simp only [readWord?, Option.bind_eq_some_iff, fits, readNat?_eq_some_iff]
  constructor
  · rintro ⟨_, h, rfl⟩
    exact h
  · exact fun h => ⟨number.toNat, h, rfl⟩

end Text

namespace Command

/-- The words that make up a command. -/
inductive Form : List String → Command → Prop where
  | operate {word : String} {operation : Operation} (called : operation.Called word) :
      Form [word] (.operate operation)
  | push {word word' : String} {segment : Segment} {index : UInt16} (called : segment.Called word)
      (number : Text.Denotes word' index) : Form ["push", word, word'] (.push segment index)
  | pop {word word' : String} {segment : Segment} {index : UInt16} (called : segment.Called word)
      (number : Text.Denotes word' index) : Form ["pop", word, word'] (.pop segment index)
  | label (name : String) : Form ["label", name] (.label name)
  | goto (name : String) : Form ["goto", name] (.goto name)
  | ifGoto (name : String) : Form ["if-goto", name] (.ifGoto name)
  | function {word : String} {locals : UInt16} (name : String) (number : Text.Denotes word locals) :
      Form ["function", name, word] (.function name locals)
  | call {word : String} {arguments : UInt16} (name : String)
      (number : Text.Denotes word arguments) :
      Form ["call", name, word] (.call name arguments)
  | ret : Form ["return"] .ret

/-- Words that are none or that make up a command. -/
def Readable (words : List String) : Prop :=
  words ≠ [] → ∃ command, Form words command

/-- The words at an index are the first that are some and make up no command. -/
structure FirstUnreadable (lines : List (List String)) (index : Nat) : Prop where
  unreadable : ∃ words, lines[index]? = some words ∧ ¬ Readable words
  earlier : ∀ words ∈ lines.take index, Readable words

/-- A readable line in front shifts the first unreadable one. -/
lemma FirstUnreadable.cons {words : List String} {lines : List (List String)} {index : Nat}
    (first : FirstUnreadable lines index) (readable : Readable words) :
    FirstUnreadable (words :: lines) (index + 1) where
  unreadable := first.unreadable
  earlier := by
    rw [List.take_succ_cons]
    exact List.forall_mem_cons.mpr ⟨readable, first.earlier⟩

section Operands

variable {keyword : String} {operands : List String} {command : Command}

/-- The word that is read as a number stands for it. -/
lemma readNumber_eq_ok_iff {word : String} {number : UInt16} :
    readNumber word = .ok number ↔ Text.Denotes word number := by
  rw [← Text.readWord?_eq_some_iff, readNumber]
  cases Text.readWord? word.toList <;> simp

/-- The word that is read as a segment is the one for it. -/
lemma readSegment_eq_ok_iff {word : String} {segment : Segment} :
    readSegment word = .ok segment ↔ segment.Called word := by
  rw [Segment.called_iff, readSegment]
  constructor
  · intro h
    cases e : Segment.ofKeyword? word with
    | none =>
      rw [e] at h
      cases h
    | some found =>
      rw [e] at h
      cases h
      have same : (segment.keyword == word) = true :=
        List.find?_some (p := fun segment => Segment.keyword segment == word) e
      exact (beq_iff_eq.mp same).symm
  · rintro rfl
    rw [Segment.ofKeyword?_keyword]

/-- A command without operands is read exactly if there are none. -/
lemma readPlain_eq_ok_iff {result : Command} :
    readPlain keyword result operands = .ok command ↔ operands = [] ∧ command = result := by
  cases operands <;> simp [readPlain, eq_comm]

/-- A command with a name is read exactly if there is one word behind the keyword. -/
lemma readJump_eq_ok_iff {result : String → Command} :
    readJump keyword result operands = .ok command ↔
      ∃ name, operands = [name] ∧ command = result name := by
  constructor
  · intro h
    unfold readJump at h
    split at h
    case h_1 name =>
      cases h
      exact ⟨name, rfl, rfl⟩
    case h_2 => cases h
  · rintro ⟨name, rfl, rfl⟩
    rfl

/-- A command with a name and a count is read exactly if a word and a number follow the keyword. -/
lemma readCounted_eq_ok_iff {result : String → UInt16 → Command} :
    readCounted keyword result operands = .ok command ↔
      ∃ name word count, operands = [name, word] ∧ Text.Denotes word count ∧
        command = result name count := by
  constructor
  · intro h
    unfold readCounted at h
    split at h
    case h_1 name word =>
      obtain ⟨count, number, h⟩ := bind_eq_ok_iff.mp h
      cases h
      exact ⟨name, word, count, rfl, readNumber_eq_ok_iff.mp number, rfl⟩
    case h_2 => cases h
  · rintro ⟨name, word, count, rfl, number, rfl⟩
    exact bind_eq_ok_iff.mpr ⟨count, readNumber_eq_ok_iff.mpr number, rfl⟩

/-- A command with a segment and an index is read exactly if their words follow the keyword. -/
lemma readTransfer_eq_ok_iff {result : Segment → UInt16 → Command} :
    readTransfer keyword result operands = .ok command ↔
      ∃ segment word word' index, operands = [word, word'] ∧ segment.Called word ∧
        Text.Denotes word' index ∧ command = result segment index := by
  constructor
  · intro h
    unfold readTransfer at h
    split at h
    case h_1 word word' =>
      obtain ⟨segment, named, h⟩ := bind_eq_ok_iff.mp h
      obtain ⟨index, number, h⟩ := bind_eq_ok_iff.mp h
      cases h
      exact ⟨segment, word, word', index, rfl, readSegment_eq_ok_iff.mp named,
        readNumber_eq_ok_iff.mp number, rfl⟩
    case h_2 => cases h
  · rintro ⟨segment, word, word', index, rfl, called, number, rfl⟩
    refine bind_eq_ok_iff.mpr ⟨segment, readSegment_eq_ok_iff.mpr called, ?_⟩
    exact bind_eq_ok_iff.mpr ⟨index, readNumber_eq_ok_iff.mpr number, rfl⟩

/-- Words are read as a command exactly if they make it up. -/
lemma ofWords_eq_ok_iff :
    ofWords keyword operands = .ok command ↔ Form (keyword :: operands) command := by
  constructor
  · intro h
    cases e : Operation.ofKeyword? keyword with
    | some operation =>
      unfold ofWords at h
      rw [e] at h
      obtain ⟨rfl, rfl⟩ := readPlain_eq_ok_iff.mp h
      have same : (operation.keyword == keyword) = true :=
        List.find?_some (p := fun operation => Operation.keyword operation == keyword) e
      exact .operate (Operation.called_iff.mpr (beq_iff_eq.mp same).symm)
    | none =>
      unfold ofWords at h
      rw [e] at h
      dsimp only at h
      -- One case for each keyword in the order of the reader, and one for any other word.
      split at h
      · obtain ⟨segment, word, word', index, rfl, called, number, rfl⟩ := readTransfer_eq_ok_iff.mp h
        exact .push called number
      · obtain ⟨segment, word, word', index, rfl, called, number, rfl⟩ := readTransfer_eq_ok_iff.mp h
        exact .pop called number
      · obtain ⟨name, rfl, rfl⟩ := readJump_eq_ok_iff.mp h
        exact .label name
      · obtain ⟨name, rfl, rfl⟩ := readJump_eq_ok_iff.mp h
        exact .goto name
      · obtain ⟨name, rfl, rfl⟩ := readJump_eq_ok_iff.mp h
        exact .ifGoto name
      · obtain ⟨name, word, count, rfl, number, rfl⟩ := readCounted_eq_ok_iff.mp h
        exact .function name number
      · obtain ⟨name, word, count, rfl, number, rfl⟩ := readCounted_eq_ok_iff.mp h
        exact .call name number
      · obtain ⟨rfl, rfl⟩ := readPlain_eq_ok_iff.mp h
        exact .ret
      · cases h
  · intro form
    cases form with
    | operate called =>
      unfold ofWords
      rw [Operation.called_iff.mp called, Operation.ofKeyword?_keyword]
      rfl
    | @push word word' segment index called number =>
      have read : readTransfer "push" .push [word, word'] = .ok (.push segment index) :=
        readTransfer_eq_ok_iff.mpr ⟨segment, word, word', index, rfl, called, number, rfl⟩
      exact read
    | @pop word word' segment index called number =>
      have read : readTransfer "pop" .pop [word, word'] = .ok (.pop segment index) :=
        readTransfer_eq_ok_iff.mpr ⟨segment, word, word', index, rfl, called, number, rfl⟩
      exact read
    | @function word locals name number =>
      have read : readCounted "function" .function [name, word] = .ok (.function name locals) :=
        readCounted_eq_ok_iff.mpr ⟨name, word, locals, rfl, number, rfl⟩
      exact read
    | @call word arguments name number =>
      have read : readCounted "call" .call [name, word] = .ok (.call name arguments) :=
        readCounted_eq_ok_iff.mpr ⟨name, word, arguments, rfl, number, rfl⟩
      exact read
    | _ => rfl

/-- No command is made up of no words. -/
lemma Form.ne_nil {words : List String} (form : Form words command) : words ≠ [] := by
  cases form <;> exact List.cons_ne_nil _ _

/-- Words make up one command at most. -/
lemma Form.unique {words : List String} {command' : Command} (form : Form words command)
    (form' : Form words command') : command = command' := by
  cases words with
  | nil => exact absurd rfl form.ne_nil
  | cons keyword operands =>
    have read := ofWords_eq_ok_iff.mpr form
    rw [ofWords_eq_ok_iff.mpr form'] at read
    exact (Except.ok.inj read).symm

end Operands

/-- The three things that a line can be: one without words, one with a command, and any other. -/
lemma ofLine_cases (line : List Char) :
    (Text.lineWords line = [] ∧ ofLine line = .ok none) ∨
      (∃ command, Form (Text.lineWords line) command ∧ ofLine line = .ok (some command)) ∨
      ∃ cause, ¬ Readable (Text.lineWords line) ∧ ofLine line = .error cause := by
  rw [ofLine, Text.map_words_withoutComment]
  cases Text.lineWords line with
  | nil => exact .inl ⟨rfl, rfl⟩
  | cons keyword operands =>
    cases e : ofWords keyword operands with
    | ok command =>
      refine .inr (.inl ⟨command, ofWords_eq_ok_iff.mp e, ?_⟩)
      simp [e]
    | error cause =>
      refine .inr (.inr ⟨cause, ?_, ?_⟩)
      · intro readable
        obtain ⟨command, form⟩ := readable (List.cons_ne_nil _ _)
        cases e.symm.trans (ofWords_eq_ok_iff.mpr form)
      · simp [e]

end Command

namespace SourceUnit

variable {name : String}

/-- Lines are read as one command for each of them that has words. -/
lemma readLines_eq_ok_iff {number : Nat} {lines : List (List Char)} {commands : List Command} :
    readLines name number lines = .ok commands ↔
      List.Forall₂ Command.Form ((lines.map Text.lineWords).filter (· ≠ [])) commands := by
  induction lines generalizing number commands with
  | nil => simp [readLines, eq_comm]
  | cons line rest ih =>
    rw [readLines, List.map_cons, List.filter_cons]
    rcases Command.ofLine_cases line with ⟨empty, e⟩ | ⟨command, form, e⟩ | ⟨cause, unreadable, e⟩
    · simp only [e, empty, ne_eq, not_true_eq_false, decide_false, ih]
      rfl
    · simp only [e, form.ne_nil, ne_eq, not_false_eq_true, decide_true, map_eq_ok_iff, ih]
      constructor
      · rintro ⟨commands, forms, rfl⟩
        exact .cons form forms
      · rintro (_ | ⟨form', forms⟩)
        exact ⟨_, forms, congrArg (· :: _) (form.unique form')⟩
    · have nonempty : Text.lineWords line ≠ [] := fun empty => unreadable (absurd empty)
      simp only [e, nonempty, ne_eq, not_false_eq_true, decide_true]
      constructor
      · intro h
        cases h
      · rintro (_ | ⟨form, _⟩)
        exact absurd (fun _ => ⟨_, form⟩) unreadable

/-- Lines that are not read are stopped at by the first of them that has words and no command. -/
lemma first_of_readLines_eq_error {number : Nat} {lines : List (List Char)} {fault : Fault}
    (h : readLines name number lines = .error fault) :
    ∃ index cause, Command.FirstUnreadable (lines.map Text.lineWords) index ∧
      fault = .unreadableLine name (number + index) cause := by
  induction lines generalizing number with
  | nil => cases h
  | cons line rest ih =>
    -- A line that can be read only shifts where the first unreadable one stands.
    have later : Command.Readable (Text.lineWords line) →
        readLines name (number + 1) rest = .error fault →
        ∃ index cause, Command.FirstUnreadable ((line :: rest).map Text.lineWords) index ∧
          fault = .unreadableLine name (number + index) cause := by
      intro readable h
      obtain ⟨index, cause, first, rfl⟩ := ih h
      refine ⟨index + 1, cause, first.cons readable, ?_⟩
      rw [Nat.add_assoc, Nat.add_comm 1]
    rw [readLines] at h
    rcases Command.ofLine_cases line with ⟨empty, e⟩ | ⟨command, form, e⟩ | ⟨cause, unreadable, e⟩
    · rw [e] at h
      exact later (fun words => absurd empty words) h
    · rw [e] at h
      refine later (fun _ => ⟨command, form⟩) ?_
      cases rested : readLines name (number + 1) rest with
      | ok commands =>
        rw [rested] at h
        cases h
      | error cause =>
        rw [rested] at h
        exact h
    · rw [e] at h
      cases h
      exact ⟨0, cause, ⟨⟨_, rfl, unreadable⟩, by simp⟩, rfl⟩

/-- A text is read as a unit exactly if the words of its lines make up the commands. -/
lemma read_eq_ok_iff {text : String} {unit : SourceUnit} :
    read name text = .ok unit ↔ unit.name = name ∧
      List.Forall₂ Command.Form ((Text.wordLines text).filter (· ≠ [])) unit.commands := by
  rw [read, map_eq_ok_iff, Text.lines_eq_splitOn]
  simp only [readLines_eq_ok_iff]
  constructor
  · rintro ⟨commands, forms, rfl⟩
    exact ⟨rfl, forms⟩
  · rintro ⟨rfl, forms⟩
    exact ⟨unit.commands, forms, rfl⟩

/-- A text that is not read is stopped at by the first line whose words make up no command. -/
lemma first_of_read_eq_error {text : String} {fault : Fault} (h : read name text = .error fault) :
    ∃ index cause, Command.FirstUnreadable (Text.wordLines text) index ∧
      fault = .unreadableLine name (index + 1) cause := by
  rw [read, Text.lines_eq_splitOn] at h
  cases e : readLines name 1 (text.toList.splitOn '\n') with
  | ok commands =>
    rw [e] at h
    cases h
  | error other =>
    rw [e] at h
    cases h
    obtain ⟨index, cause, first, rfl⟩ := first_of_readLines_eq_error e
    exact ⟨index, cause, first, by rw [Nat.add_comm]⟩

/-- Reading a text gives a unit exactly if the words of every line are none or make up a command. The unit
has the given name and one command for each line that has words, in order. Otherwise the fault names the
unit and the first line whose words make up no command, where lines are counted from one and all of them
count. -/
theorem read_iff_grammar (name text : String) :
    ((∃ unit, read name text = .ok unit) ↔
        ∀ words ∈ Text.wordLines text, Command.Readable words) ∧
      (∀ unit, read name text = .ok unit ↔ unit.name = name ∧
        List.Forall₂ Command.Form ((Text.wordLines text).filter (· ≠ [])) unit.commands) ∧
      ∀ fault, read name text = .error fault →
        ∃ index cause, Command.FirstUnreadable (Text.wordLines text) index ∧
          fault = .unreadableLine name (index + 1) cause := by
  refine ⟨⟨?_, ?_⟩, fun unit => read_eq_ok_iff, fun fault => first_of_read_eq_error⟩
  · rintro ⟨unit, h⟩ words hw nonempty
    have listed : words ∈ (Text.wordLines text).filter (· ≠ []) := by simp [hw, nonempty]
    obtain ⟨-, forms⟩ := read_eq_ok_iff.mp h
    -- Each of the listed lines has the command beside it as its form.
    have all := forms.imp (S := fun words command =>
      (∃ command, Command.Form words command) ∧ Command.Form words command)
        fun words command form => ⟨⟨command, form⟩, form⟩
    exact ((List.forall₂_and_left _ _).mp all).1 words listed
  · intro readable
    cases h : read name text with
    | ok unit => exact ⟨unit, rfl⟩
    | error fault =>
      obtain ⟨index, cause, first, -⟩ := first_of_read_eq_error h
      obtain ⟨words, found, unreadable⟩ := first.unreadable
      exact absurd (readable words (List.mem_of_getElem? found)) unreadable

end SourceUnit

end HackVM
