import Mathlib
import HackVM.Proofs.Acceptance
import HackVM.Machine.Image

/-!
# No label is declared twice

Every label of a compiled program is made from names by joining them with dots and dollar signs. A
`Mark` says what a label stands for before it is spelled out. Spelling is injective on the marks that
a program with legal names can have, and no mark is set twice, so no label is declared twice.
-/

namespace HackVM

/-- What a label in the code of a program's own commands stands for. -/
inductive Mark where
  /-- The entry of a function. -/
  | entry (scope : Scope)
  /-- A label of a function's commands. -/
  | user (scope : Scope) (name : String)
  /-- The loop that clears the local variables of a function. -/
  | loop (scope : Scope)
  /-- The place at which control comes back to a function. -/
  | back (scope : Scope) (tag : String) (serial : Nat)
deriving DecidableEq, Repr

namespace Mark

/-- The function that a mark belongs to. -/
def scope : Mark → Scope
  | .entry scope | .user scope _ | .loop scope | .back scope _ _ => scope

/-- The label that stands for a mark. -/
def text : Mark → String
  | .entry scope => scope.entry
  | .user scope name => scope.userLabel name
  | .loop scope => scope.localsLoop
  | .back scope tag serial => scope.returnLabel tag serial

/-- What a label has behind the entry of its function. -/
def suffix : Mark → List Char
  | .entry _ => []
  | .user _ name => '$' :: name.toList
  | .loop _ => '$' :: ("locals".toList ++ '$' :: "loop".toList)
  | .back _ tag serial => '$' :: (tag.toList ++ '$' :: (Nat.repr serial).toList)

/-- The names in a mark have no character that is used to join them. -/
structure Clean (mark : Mark) : Prop where
  unit : '.' ∉ mark.scope.unit.toList ∧ '$' ∉ mark.scope.unit.toList
  function : '$' ∉ mark.scope.function.toList
  user : ∀ scope name, mark = .user scope name → '$' ∉ name.toList
  tag : ∀ scope tag serial, mark = .back scope tag serial → '$' ∉ tag.toList

end Mark

/-- Two lists that go on behind their first `c` agree in front of it and behind it. -/
lemma append_cons_inj {α : Type} {c : α} {a b x y : List α} (ha : c ∉ a) (hb : c ∉ b)
    (h : a ++ c :: x = b ++ c :: y) : a = b ∧ x = y := by
  induction a generalizing b with
  | nil =>
    cases b with
    | nil => exact ⟨rfl, (List.cons.inj h).2⟩
    | cons d b => exact absurd ((List.cons.inj h).1 ▸ List.mem_cons_self) hb
  | cons d a ih =>
    cases b with
    | nil => exact absurd ((List.cons.inj h).1 ▸ List.mem_cons_self) ha
    | cons e b =>
      obtain ⟨rfl, tails⟩ := List.cons.inj h
      obtain ⟨rfl, rfl⟩ := ih (fun hm => ha (.tail _ hm)) (fun hm => hb (.tail _ hm)) tails
      exact ⟨rfl, rfl⟩

/-- The same where either list may also end in front of its first `c`. -/
lemma append_inj_of_notMem {α : Type} {c : α} {a b x y : List α} (ha : c ∉ a) (hb : c ∉ b)
    (hx : x = [] ∨ ∃ tail, x = c :: tail) (hy : y = [] ∨ ∃ tail, y = c :: tail)
    (h : a ++ x = b ++ y) : a = b ∧ x = y := by
  rcases hx with rfl | ⟨x, rfl⟩ <;> rcases hy with rfl | ⟨y, rfl⟩
  · exact ⟨by simpa using h, rfl⟩
  · rw [List.append_nil] at h
    exact absurd (by simp [h]) ha
  · rw [List.append_nil] at h
    exact absurd (by simp [← h]) hb
  · obtain ⟨fronts, tails⟩ := append_cons_inj ha hb h
    exact ⟨fronts, congrArg _ tails⟩

lemma isDigit_of_mem_repr {number : Nat} {c : Char} (h : c ∈ (Nat.repr number).toList) :
    c.isDigit = true := by
  rw [Nat.toList_repr] at h
  exact Nat.isDigit_of_mem_toDigits (by decide) (by decide) h

/-- The entry label of a function, character by character. -/
lemma Scope.toList_entry (scope : Scope) :
    scope.entry.toList = scope.unit.toList ++ '.' :: scope.function.toList := by
  simp [Scope.entry, String.toList_append]

/-- Different functions of units without dots in their names have different entry labels. -/
lemma Scope.entry_inj {scope scope' : Scope} (h : '.' ∉ scope.unit.toList)
    (h' : '.' ∉ scope'.unit.toList) (e : scope.entry = scope'.entry) : scope = scope' := by
  have e := congrArg String.toList e
  rw [toList_entry, toList_entry] at e
  obtain ⟨units, functions⟩ := append_cons_inj h h' e
  cases scope
  cases scope'
  exact congrArg₂ Scope.mk (String.toList_injective units) (String.toList_injective functions)

namespace Mark

/-- A label is the entry of its function with what it has behind it. -/
lemma toList_text (mark : Mark) : mark.text.toList = mark.scope.entry.toList ++ mark.suffix := by
  cases mark <;>
    simp [text, suffix, scope, Scope.userLabel, Scope.localsLoop, Scope.returnLabel,
      String.toList_append]

/-- The entry label of a clean mark's function has no dollar sign. -/
lemma Clean.dollar_notMem_entry {mark : Mark} (h : mark.Clean) :
    '$' ∉ mark.scope.entry.toList := by
  rw [Scope.toList_entry]
  simp [h.unit.2, h.function]

/-- No decimal numeral is the word `loop`. -/
lemma loop_ne_repr (serial : Nat) : "loop".toList ≠ (Nat.repr serial).toList := by
  intro h
  have hl : 'l' ∈ (Nat.repr serial).toList := h ▸ by decide
  exact absurd (isDigit_of_mem_repr hl) (by decide)

/-- Clean marks of one function with the same label are the same. -/
lemma suffix_inj {mark mark' : Mark} (h : mark.Clean) (h' : mark'.Clean)
    (hs : mark.scope = mark'.scope) (e : mark.suffix = mark'.suffix) : mark = mark' := by
  -- a second dollar sign tells the labels that a program does not choose from those it does
  have user_ne {scope : Scope} {name : String} {x y : List Char}
      (clean : (Mark.user scope name).Clean) : '$' :: name.toList ≠ '$' :: (x ++ '$' :: y) := by
    intro e
    refine clean.user scope name rfl ?_
    rw [(List.cons.inj e).2]
    simp
  cases mark with
  | entry s =>
    cases mark' with
    | entry s' => exact congrArg Mark.entry hs
    | _ => exact nomatch e
  | user s name =>
    cases mark' with
    | entry s' => exact nomatch e
    | user s' name' =>
      have names := String.toList_injective (List.cons.inj e).2
      exact congrArg₂ Mark.user hs names
    | loop s' => exact absurd e (user_ne h)
    | back s' tag serial => exact absurd e (user_ne h)
  | loop s =>
    cases mark' with
    | entry s' => exact nomatch e
    | user s' name => exact absurd e.symm (user_ne h')
    | loop s' => exact congrArg Mark.loop hs
    | back s' tag serial =>
      have clean := h'.tag s' tag serial rfl
      obtain ⟨-, words⟩ := append_cons_inj (by decide) clean (List.cons.inj e).2
      exact absurd words (loop_ne_repr serial)
  | back s tag serial =>
    have clean := h.tag s tag serial rfl
    cases mark' with
    | entry s' => exact nomatch e
    | user s' name => exact absurd e.symm (user_ne h')
    | loop s' =>
      obtain ⟨-, words⟩ := append_cons_inj clean (by decide) (List.cons.inj e).2
      exact absurd words.symm (loop_ne_repr serial)
    | back s' tag' serial' =>
      obtain ⟨tags, numerals⟩ :=
        append_cons_inj clean (h'.tag s' tag' serial' rfl) (List.cons.inj e).2
      have hs : s = s' := hs
      rw [hs, String.toList_injective tags,
        Nat.repr_injective (String.toList_injective numerals)]

/-- What a label has behind the entry of its function starts with a dollar sign. -/
lemma suffix_eq (mark : Mark) : mark.suffix = [] ∨ ∃ tail, mark.suffix = '$' :: tail := by
  cases mark with
  | entry s => exact .inl rfl
  | _ => exact .inr ⟨_, rfl⟩

/-- Clean marks with the same label are the same. -/
lemma text_inj {mark mark' : Mark} (h : mark.Clean) (h' : mark'.Clean)
    (e : mark.text = mark'.text) : mark = mark' := by
  have e := congrArg String.toList e
  rw [toList_text, toList_text] at e
  obtain ⟨entries, suffixes⟩ := append_inj_of_notMem h.dollar_notMem_entry h'.dollar_notMem_entry
    mark.suffix_eq mark'.suffix_eq e
  have scopes := Scope.entry_inj h.unit.1 h'.unit.1 (String.toList_injective entries)
  exact suffix_inj h h' scopes suffixes

end Mark

namespace Code

/-- The labels that code declares, in order. -/
def labels (code : Code) : List String :=
  code.filterMap fun
    | .label name => some name
    | _ => none

@[simp]
lemma labels_nil : labels [] = [] := rfl

@[simp]
lemma labels_append (first second : Code) :
    labels (first ++ second) = first.labels ++ second.labels := by
  simp [labels]

@[simp]
lemma labels_cons_label (name : String) (rest : Code) :
    labels (.label name :: rest) = name :: labels rest := rfl

@[simp]
lemma labels_cons_load (operand : Operand) (rest : Code) :
    labels (.load operand :: rest) = labels rest := rfl

@[simp]
lemma labels_cons_compute (dest : Dest) (comp : Comp) (jump : Jump) (rest : Code) :
    labels (.compute dest comp jump :: rest) = labels rest := rfl

lemma labels_replicate_pushComp (comp : Comp) (count : Nat) :
    labels (List.replicate count (pushComp comp)).flatten = [] := by
  induction count with
  | zero => rfl
  | succ count ih => rw [List.replicate_succ, List.flatten_cons, labels_append, ih]; rfl

end Code

namespace Location

/-- Pushing the value at a place declares no label. -/
lemma labels_pushCode (location : Location) : location.pushCode.labels = [] := by
  cases location with
  | immediate value =>
    rw [pushCode]
    split_ifs <;> rfl
  | indirect base offset =>
    rw [pushCode]
    split_ifs <;> rfl
  | _ => rfl

/-- Popping into a place declares no label. -/
lemma labels_popCode {location : Location} {code : Code} (h : location.popCode? = some code) :
    code.labels = [] := by
  cases location with
  | immediate value => exact nomatch h
  | indirect base offset =>
    cases h
    rw [addressCode]
    split_ifs <;> rfl
  | _ => cases h; rfl

end Location

namespace Line

/-- The marks that the code of a line sets. -/
def marks (inlineMax : UInt16) (returns : Nat) (line : Line) : List Mark :=
  match line.command with
  | .label name => [.user line.scope name]
  | .function _ locals =>
    .entry line.scope :: if locals ≤ inlineMax then [] else [.loop line.scope]
  | .call .. => [.back line.scope "ret" (returns + 1)]
  | .operate (.compare comparison) => [.back line.scope comparison.tag (returns + 1)]
  | _ => []

/-- The marks that the code of lines sets. -/
def marksOf (inlineMax : UInt16) : (returns : Nat) → List Line → List Mark
  | _, [] => []
  | returns, line :: rest =>
    line.marks inlineMax returns ++ marksOf inlineMax (returns + line.command.returnLabels) rest

variable {functions : List (String × String)} {inlineMax : UInt16} {returns : Nat}

/-- The labels in the code of a well-formed line are those of its marks. -/
lemma labels_code {line : Line} (wf : line.command.WellFormed (functions.map Prod.fst)) :
    (line.code functions inlineMax returns).labels =
      (line.marks inlineMax returns).map Mark.text := by
  obtain ⟨scope, command⟩ := line
  generalize e : Line.code functions inlineMax returns ⟨scope, command⟩ = code
  have lowers := e ▸ lowers_code wf
  cases lowers with
  | @push _ _ location => exact location.labels_pushCode
  | pop _ place => exact Location.labels_popCode place
  | operate operation => cases operation <;> rfl
  | @function _ locals =>
    rw [marks, Scope.prologue]
    by_cases h : locals ≤ inlineMax
    · simp only [if_pos h, Code.labels_cons_label, Code.labels_replicate_pushComp]
      rfl
    · simp only [if_neg h]
      rfl
  | call =>
    rw [Code.callSequence, Code.loadArgumentCount]
    split_ifs <;> rfl
  | _ => rfl

/-- The labels in the code of well-formed lines are those of their marks. -/
lemma labels_codeOf {lines : List Line}
    (wf : ∀ line ∈ lines, line.command.WellFormed (functions.map Prod.fst)) :
    (codeOf functions inlineMax returns lines).labels =
      (marksOf inlineMax returns lines).map Mark.text := by
  induction lines generalizing returns with
  | nil => rfl
  | cons line rest ih =>
    rw [codeOf, marksOf, Code.labels_append, List.map_append,
      labels_code (wf line List.mem_cons_self), ih fun line hl => wf line (.tail _ hl)]

/-- The functions that lines start. -/
def starts (lines : List Line) : List Scope :=
  lines.filterMap fun line => line.command.defines?.map fun _ => line.scope

/-- The labels that lines declare, with their functions. -/
def declarations (lines : List Line) : List (Scope × String) :=
  lines.filterMap fun line => line.command.declares?.map fun name => (line.scope, name)

lemma starts_cons (line : Line) (rest : List Line) :
    starts (line :: rest) =
      (line.command.defines?.map fun _ => line.scope).toList ++ starts rest := by
  rw [starts, List.filterMap_cons]
  cases line.command.defines? <;> rfl

lemma declarations_cons (line : Line) (rest : List Line) :
    declarations (line :: rest) =
      (line.command.declares?.map fun name => (line.scope, name)).toList ++ declarations rest := by
  rw [declarations, List.filterMap_cons]
  cases line.command.declares? <;> rfl

/-- Where the marks of lines come from: each belongs to a function or a label that the lines start or
declare, or was given a number that no earlier one has. -/
def SetsMark (returns : Nat) (lines : List Line) : Mark → Prop
  | .entry scope | .loop scope => scope ∈ starts lines
  | .user scope name => (scope, name) ∈ declarations lines
  | .back _ _ serial => returns < serial

/-- The start of a function marks its entry and perhaps the loop over its locals. -/
lemma mem_marks_function {scope : Scope} {name : String} {locals : UInt16} {mark : Mark}
    (h : mark ∈ Line.marks inlineMax returns ⟨scope, .function name locals⟩) :
    mark = .entry scope ∨ mark = .loop scope := by
  have h : mark ∈ Mark.entry scope :: if locals ≤ inlineMax then [] else [Mark.loop scope] := h
  split_ifs at h
  · exact .inl (List.mem_singleton.mp h)
  · simpa using h

/-- A mark of a line comes from that line. -/
lemma setsMark_of_mem_marks {line : Line} {mark : Mark} (h : mark ∈ line.marks inlineMax returns) :
    SetsMark returns [line] mark := by
  obtain ⟨scope, command⟩ := line
  cases command with
  | label name =>
    cases List.mem_singleton.mp h
    exact List.mem_singleton_self _
  | function name locals =>
    rcases mem_marks_function h with rfl | rfl <;> exact List.mem_singleton_self _
  | call name arguments =>
    cases List.mem_singleton.mp h
    exact Nat.lt_succ_self returns
  | operate operation =>
    cases operation with
    | compare comparison =>
      cases List.mem_singleton.mp h
      exact Nat.lt_succ_self returns
    | _ => exact nomatch h
  | _ => exact nomatch h

/-- Lines in front keep where a mark comes from. -/
lemma SetsMark.cons {line : Line} {rest : List Line} {mark : Mark} {count : Nat}
    (h : SetsMark (returns + count) rest mark) : SetsMark returns (line :: rest) mark := by
  have sublist := List.sublist_cons_self line rest
  cases mark with
  | entry scope => exact (sublist.filterMap _).mem h
  | user scope name => exact (sublist.filterMap _).mem h
  | loop scope => exact (sublist.filterMap _).mem h
  | back scope tag serial => exact Nat.lt_of_le_of_lt (Nat.le_add_right _ _) h

/-- Lines behind keep where a mark comes from. -/
lemma SetsMark.of_singleton {line : Line} {rest : List Line} {mark : Mark}
    (h : SetsMark returns [line] mark) : SetsMark returns (line :: rest) mark := by
  have sublist : List.Sublist [line] (line :: rest) := (List.nil_sublist rest).cons_cons line
  cases mark with
  | entry scope => exact (sublist.filterMap _).mem h
  | user scope name => exact (sublist.filterMap _).mem h
  | loop scope => exact (sublist.filterMap _).mem h
  | back scope tag serial => exact h

/-- Every mark of lines comes from them. -/
lemma setsMark_of_mem_marksOf {lines : List Line} {mark : Mark}
    (h : mark ∈ marksOf inlineMax returns lines) : SetsMark returns lines mark := by
  induction lines generalizing returns with
  | nil => exact nomatch h
  | cons line rest ih =>
    rcases List.mem_append.mp h with h | h
    · exact (setsMark_of_mem_marks h).of_singleton
    · exact (ih h).cons

/-- A line sets no mark twice. -/
lemma nodup_marks (line : Line) : (line.marks inlineMax returns).Nodup := by
  obtain ⟨scope, command⟩ := line
  cases command with
  | function name locals =>
    show (Mark.entry scope :: if locals ≤ inlineMax then [] else [Mark.loop scope]).Nodup
    split_ifs <;> simp
  | operate operation => cases operation <;> simp [marks]
  | _ => simp [marks]

/-- Lines that start no function twice and declare no label of a function twice set no mark twice. -/
lemma nodup_marksOf {lines : List Line} (hs : (starts lines).Nodup)
    (hd : (declarations lines).Nodup) : (marksOf inlineMax returns lines).Nodup := by
  induction lines generalizing returns with
  | nil => exact List.nodup_nil
  | cons line rest ih =>
    have hs' := hs.sublist ((List.sublist_cons_self line rest).filterMap _)
    have hd' := hd.sublist ((List.sublist_cons_self line rest).filterMap _)
    refine List.nodup_append.mpr ⟨nodup_marks line, ih hs' hd', ?_⟩
    -- A mark that the rest sets again would be declared, started or numbered twice.
    rintro mark h _ h' rfl
    have later := setsMark_of_mem_marksOf h'
    obtain ⟨scope, command⟩ := line
    cases command with
    | label name =>
      cases List.mem_singleton.mp h
      exact (List.nodup_cons.mp hd).1 later
    | function name locals =>
      rcases mem_marks_function h with rfl | rfl <;> exact (List.nodup_cons.mp hs).1 later
    | call name arguments =>
      cases List.mem_singleton.mp h
      exact Nat.lt_irrefl _ later
    | operate operation =>
      cases operation with
      | compare comparison =>
        cases List.mem_singleton.mp h
        exact Nat.lt_irrefl _ later
      | _ => exact nomatch h
    | _ => exact nomatch h

end Line

namespace SourceUnit

variable {unit current : String} {commands : List Command}

/-- The lines of a unit start the functions that its commands define. -/
lemma starts_linesFrom (unit current : String) (commands : List Command) :
    Line.starts (linesFrom unit current commands) =
      (commands.filterMap Command.defines?).map fun name => ⟨unit, name⟩ := by
  induction commands generalizing current with
  | nil => rfl
  | cons command rest ih =>
    rw [linesFrom, Line.starts_cons, ih, List.filterMap_cons, Command.within]
    cases command.defines? <;> rfl

/-- A label that the lines of a unit declare is one of the function at hand or of a later one. -/
lemma mem_declarations_linesFrom {scope : Scope} {label : String}
    (h : (scope, label) ∈ Line.declarations (linesFrom unit current commands)) :
    scope.unit = unit ∧
      (scope.function = current ∧ label ∈ Command.declared (Command.body commands) ∨
        scope.function ∈ commands.filterMap Command.defines?) := by
  induction commands generalizing current with
  | nil => exact nomatch h
  | cons command rest ih =>
    rw [linesFrom, Line.declarations_cons] at h
    cases command with
    | function name locals =>
      obtain ⟨hu, ⟨hf, -⟩ | hf⟩ := ih h
      · exact ⟨hu, .inr (hf ▸ List.mem_cons_self)⟩
      · exact ⟨hu, .inr (.tail _ hf)⟩
    | label name =>
      rcases List.mem_cons.mp h with e | h
      · cases e
        exact ⟨rfl, .inl ⟨rfl, List.mem_cons_self⟩⟩
      · obtain ⟨hu, ⟨hf, hl⟩ | hf⟩ := ih h
        · exact ⟨hu, .inl ⟨hf, .tail _ hl⟩⟩
        · exact ⟨hu, .inr hf⟩
    | _ => exact ih h

/-- A unit declares no label of a function twice if none of its bodies does. -/
lemma nodup_declarations_linesFrom (hc : current ∉ commands.filterMap Command.defines?)
    (hn : (commands.filterMap Command.defines?).Nodup)
    (hb : (Command.declared (Command.body commands)).Nodup)
    (hbs : ∀ body ∈ Command.bodies commands, (Command.declared body).Nodup) :
    (Line.declarations (linesFrom unit current commands)).Nodup := by
  induction commands generalizing current with
  | nil => exact List.nodup_nil
  | cons command rest ih =>
    rw [linesFrom, Line.declarations_cons]
    cases command with
    | function name locals =>
      obtain ⟨hn', hn⟩ := List.nodup_cons.mp hn
      exact ih hn' hn (hbs _ List.mem_cons_self) fun body h => hbs body (.tail _ h)
    | label name =>
      obtain ⟨hb', hb⟩ := List.nodup_cons.mp hb
      refine List.nodup_cons.mpr ⟨fun h => ?_, ih hc hn hb hbs⟩
      obtain ⟨-, ⟨-, hl⟩ | hf⟩ := mem_declarations_linesFrom h
      · exact hb' hl
      · exact hc hf
    | _ => exact ih hc hn hb hbs

/-- A line of a unit has one of its commands, and its function is the one at hand or one that the unit
defines. -/
lemma mem_linesFrom {line : Line} (h : line ∈ linesFrom unit current commands) :
    line.command ∈ commands ∧ line.scope.unit = unit ∧
      (line.scope.function = current ∨
        line.scope.function ∈ commands.filterMap Command.defines?) := by
  induction commands generalizing current with
  | nil => exact nomatch h
  | cons command rest ih =>
    rcases List.mem_cons.mp h with rfl | h
    · refine ⟨List.mem_cons_self, rfl, ?_⟩
      rw [List.filterMap_cons, Command.within]
      cases command.defines? with
      | none => exact .inl rfl
      | some name => exact .inr List.mem_cons_self
    · obtain ⟨hm, hu, hf⟩ := ih h
      refine ⟨.tail _ hm, hu, ?_⟩
      rw [Command.within] at hf
      rw [List.filterMap_cons]
      cases hd : command.defines? with
      | none =>
        rw [hd] at hf
        exact hf
      | some name =>
        rw [hd] at hf
        rcases hf with hf | hf
        · exact .inr (hf ▸ List.mem_cons_self)
        · exact .inr (.tail _ hf)

/-- In a unit that starts with a function every line belongs to a function that the unit defines. -/
lemma function_mem_of_starts {line : Line} (h : line ∈ linesFrom unit current commands)
    (starts : ∀ command ∈ commands.head?, command.isFunction = true) :
    line.scope.function ∈ commands.filterMap Command.defines? := by
  cases commands with
  | nil => exact nomatch h
  | cons command rest =>
    cases command with
    | function name locals =>
      rcases List.mem_cons.mp h with rfl | h
      · exact List.mem_cons_self
      · rcases (mem_linesFrom h).2.2 with hf | hf
        · exact hf ▸ List.mem_cons_self
        · exact .tail _ hf
    | _ => exact absurd (starts _ rfl) (by simp [Command.isFunction])

end SourceUnit

/-- Legal names have no dollar sign. -/
lemma Name.Legal.dollar_notMem {name : String} (h : Name.Legal name) : '$' ∉ name.toList :=
  fun hm => absurd (h.chars _ hm) (by decide)

namespace Line

/-- Every mark of lines is a mark of one of them. -/
lemma exists_of_mem_marksOf {inlineMax : UInt16} {returns : Nat} {lines : List Line} {mark : Mark}
    (h : mark ∈ marksOf inlineMax returns lines) :
    ∃ line ∈ lines, ∃ returns, mark ∈ line.marks inlineMax returns := by
  induction lines generalizing returns with
  | nil => exact nomatch h
  | cons line rest ih =>
    rcases List.mem_append.mp h with h | h
    · exact ⟨line, List.mem_cons_self, returns, h⟩
    · obtain ⟨other, ho, h⟩ := ih h
      exact ⟨other, .tail _ ho, h⟩

/-- The marks of a well-formed line in a function with a legal name are clean, and belong to that
function. -/
lemma clean_of_mem_marks {inlineMax : UInt16} {returns : Nat} {line : Line} {mark : Mark}
    {defined : List String} (hu : SourceUnit.LegalName line.scope.unit)
    (hf : Name.Legal line.scope.function) (wf : line.command.WellFormed defined)
    (h : mark ∈ line.marks inlineMax returns) : mark.scope = line.scope ∧ mark.Clean := by
  obtain ⟨scope, command⟩ := line
  have unit : '.' ∉ scope.unit.toList ∧ '$' ∉ scope.unit.toList :=
    ⟨hu.undotted, hu.legal.dollar_notMem⟩
  have function : '$' ∉ scope.function.toList := hf.dollar_notMem
  cases command with
  | label name =>
    cases List.mem_singleton.mp h
    refine ⟨rfl, unit, function, ?_, nofun⟩
    rintro _ _ ⟨⟩
    exact Name.Legal.dollar_notMem wf
  | function name locals =>
    rcases mem_marks_function h with rfl | rfl <;> exact ⟨rfl, unit, function, nofun, nofun⟩
  | call name arguments =>
    cases List.mem_singleton.mp h
    refine ⟨rfl, unit, function, nofun, ?_⟩
    rintro _ _ _ ⟨⟩
    decide
  | operate operation =>
    cases operation with
    | compare comparison =>
      cases List.mem_singleton.mp h
      refine ⟨rfl, unit, function, nofun, ?_⟩
      rintro _ _ _ ⟨⟩
      cases comparison <;> decide
    | _ => exact nomatch h
  | _ => exact nomatch h

end Line

/-- Nothing that a dot joins to a legal unit name starts with two underscores. -/
lemma SourceUnit.LegalName.unreserved_append {name : String} (h : SourceUnit.LegalName name)
    (tail : List Char) : ¬ ['_', '_'] <+: name.toList ++ '.' :: tail := by
  have nonempty := h.legal.nonempty
  have unreserved := h.unreserved
  cases e : name.toList with
  | nil => exact absurd e nonempty
  | cons first rest =>
    rw [e] at unreserved
    cases rest with
    | nil => simp
    | cons second rest => simpa using unreserved

/-- No label of a unit with a legal name starts with two underscores. -/
lemma Mark.text_unreserved {mark : Mark} (h : SourceUnit.LegalName mark.scope.unit) :
    ¬ ['_', '_'] <+: mark.text.toList := by
  rw [toList_text, Scope.toList_entry, List.append_assoc]
  exact h.unreserved_append _

namespace Program

variable {settings : Settings} {program : Program} {compiled : Compiled}

/-- The names of the functions of a program, unit by unit. -/
lemma functionNames_eq (program : Program) :
    program.functionNames =
      program.flatMap fun unit => unit.commands.filterMap Command.defines? := by
  simp [functionNames, definitions, List.map_flatMap, Function.comp_def]

namespace Accepted

/-- Every line of an acceptable program is well formed and stands in a unit and a function of the
program. -/
lemma line_legal (accepted : program.Accepted settings) {line : Line} (h : line ∈ program.lines) :
    SourceUnit.LegalName line.scope.unit ∧ Name.Legal line.scope.function ∧
      line.command.WellFormed program.functionNames := by
  obtain ⟨unit, hu, h⟩ := List.mem_flatMap.mp h
  obtain ⟨command, unit_eq, -⟩ := SourceUnit.mem_linesFrom h
  have function := SourceUnit.function_mem_of_starts h (accepted.starts unit hu)
  refine ⟨unit_eq ▸ accepted.unitNames unit hu, accepted.functionsLegal _ ?_,
    accepted.wellFormed unit hu _ command⟩
  rw [functionNames_eq]
  exact List.mem_flatMap.mpr ⟨unit, hu, function⟩

/-- An acceptable program starts no function twice. -/
lemma nodup_starts (accepted : program.Accepted settings) : (Line.starts program.lines).Nodup := by
  apply List.Nodup.of_map Scope.function
  have names : (Line.starts program.lines).map Scope.function = program.functionNames := by
    rw [functionNames_eq, Line.starts, lines, List.filterMap_flatMap, List.map_flatMap]
    congr 1
    funext unit
    rw [← Line.starts, SourceUnit.starts_linesFrom, List.map_map]
    exact List.map_id _
  rw [names]
  exact accepted.functionsDistinct

/-- An acceptable program declares no label of a function twice. -/
lemma nodup_declarations (accepted : program.Accepted settings) :
    (Line.declarations program.lines).Nodup := by
  rw [Line.declarations, lines, List.filterMap_flatMap, List.nodup_flatMap]
  constructor
  · intro unit hu
    have distinct := accepted.functionsDistinct
    rw [functionNames_eq, List.nodup_flatMap] at distinct
    have body := Command.body_eq_nil (accepted.starts unit hu)
    refine SourceUnit.nodup_declarations_linesFrom ?_ (distinct.1 unit hu)
      (body ▸ List.nodup_nil) fun body hb => (accepted.labels unit hu body hb).nodup
    -- The empty name stands for "no function yet" and is no function's name.
    intro hn
    have legal := accepted.functionsLegal ""
      (by rw [functionNames_eq]; exact List.mem_flatMap.mpr ⟨unit, hu, hn⟩)
    exact legal.nonempty rfl
  · have distinct := List.pairwise_map.mp accepted.unitsDistinct
    refine distinct.imp fun {unit unit'} different => ?_
    rintro ⟨scope, label⟩ h h'
    have hu := (SourceUnit.mem_declarations_linesFrom h).1
    have hu' := (SourceUnit.mem_declarations_linesFrom h').1
    exact different (hu.symm.trans hu')

/-- Every mark in the code of an acceptable program is clean and belongs to a unit and a function with
legal names. -/
lemma clean_of_mem_marksOf (accepted : program.Accepted settings) {returns : Nat} {mark : Mark}
    (h : mark ∈ Line.marksOf settings.inlineLocals returns program.lines) :
    SourceUnit.LegalName mark.scope.unit ∧ Name.Legal mark.scope.function ∧ mark.Clean := by
  obtain ⟨line, hl, returns', h⟩ := Line.exists_of_mem_marksOf h
  obtain ⟨unit, function, wf⟩ := accepted.line_legal hl
  obtain ⟨scope, clean⟩ := Line.clean_of_mem_marks unit function wf h
  exact ⟨scope ▸ unit, scope ▸ function, clean⟩

end Accepted

/-- The labels in front of the first command: those of the bootstrap and of the shared routines. -/
lemma labels_preamble :
    (program.preamble settings).labels =
      Bootstrap.returnLabel :: Bootstrap.halt :: Routine.allCode.labels := rfl

/-- The labels in front of the first command are different and start with two underscores. -/
lemma reserved_labels :
    (Bootstrap.returnLabel :: Bootstrap.halt :: Routine.allCode.labels).Nodup ∧
      ∀ label ∈ Bootstrap.returnLabel :: Bootstrap.halt :: Routine.allCode.labels,
        ['_', '_'] <+: label.toList := by
  decide +kernel

/-- No label of an acceptable program's code is declared twice. -/
lemma Accepted.nodup_labels (accepted : program.Accepted settings) :
    (program.assembly settings).labels.Nodup := by
  have wf : ∀ line ∈ program.lines,
      line.command.WellFormed (program.definitions.map Prod.fst) :=
    fun line hl => (accepted.line_legal hl).2.2
  rw [assembly, Code.labels_append, labels_preamble, Line.labels_codeOf wf]
  refine List.nodup_append.mpr ⟨reserved_labels.1, ?_, ?_⟩
  · refine List.Nodup.map_on ?_ (Line.nodup_marksOf accepted.nodup_starts
      accepted.nodup_declarations)
    intro mark h mark' h' e
    have clean := (accepted.clean_of_mem_marksOf h).2.2
    have clean' := (accepted.clean_of_mem_marksOf h').2.2
    exact Mark.text_inj clean clean' e
  · rintro label hr _ hm rfl
    obtain ⟨mark, h, rfl⟩ := List.mem_map.mp hm
    exact Mark.text_unreserved (accepted.clean_of_mem_marksOf h).1 (reserved_labels.2 _ hr)

end Program

/-- The table of labels lists the labels of code in order. -/
lemma Code.map_fst_labelTable (code : Code) (address : Nat) :
    (code.labelTable address).map Prod.fst = code.labels := by
  induction code generalizing address with
  | nil => rfl
  | cons instruction rest ih =>
    cases instruction with
    | label name => exact congrArg _ (ih address)
    | _ => exact ih (address + 1)

namespace Image

/-- A list repeats nothing if its names are different and none of them stands in front of it. -/
lemma firstRepeated?_eq_none_iff {earlier names : List String} :
    firstRepeated? earlier names = none ↔ (∀ name ∈ names, name ∉ earlier) ∧ names.Nodup := by
  induction names generalizing earlier with
  | nil => exact ⟨fun _ => ⟨nofun, List.nodup_nil⟩, fun _ => rfl⟩
  | cons name rest ih =>
    rw [firstRepeated?, List.forall_mem_cons, List.nodup_cons]
    by_cases h : name ∈ earlier
    · simp [h]
    · rw [if_neg (by simpa using h), ih]
      simp only [List.mem_cons, not_or]
      constructor
      · rintro ⟨later, distinct⟩
        refine ⟨⟨h, fun other ho => (later other ho).2⟩, fun hn => (later name hn).1 rfl, distinct⟩
      · rintro ⟨⟨-, later⟩, hn, distinct⟩
        exact ⟨fun other ho => ⟨fun e => hn (e ▸ ho), later other ho⟩, distinct⟩

/-- Code that declares no label twice is placed without repetition. -/
lemma firstRepeated?_placedLabels {code : Code} (h : code.labels.Nodup) :
    firstRepeated? [] (placedLabels code) = none := by
  refine firstRepeated?_eq_none_iff.mpr ⟨nofun, ?_⟩
  rw [← code.map_fst_labelTable 0] at h
  exact h.sublist (List.filter_sublist.map Prod.fst)

end Image

namespace Program

/-- No label of a compiled program is declared twice, so loading never finds one that is. -/
theorem compiled_labels_nodup {settings : Settings} {program : Program} {compiled : Compiled}
    (h : compile settings program = .ok compiled) :
    compiled.code.labels.Nodup ∧
      ∀ name, Image.ofCode compiled.code ≠ .error (.duplicateLabel name) := by
  have distinct : compiled.code.labels.Nodup := by
    rw [compile_code h]
    exact (Accepted.of_compile h).nodup_labels
  refine ⟨distinct, fun name e => ?_⟩
  rw [Image.ofCode, Image.fault?, Image.firstRepeated?_placedLabels distinct] at e
  split at e
  · next fault hf =>
    cases e
    dsimp only at hf
    split_ifs at hf <;> simp at hf
  · exact nomatch e

/-- A program whose names look like the labels that compilation makes: functions that start with a dot
or a colon, labels called `ret`, `locals` and `loop`, and a function with a loop over its locals. -/
def lookalike : Program :=
  [⟨"A", [.function "ret" 9, .label "ret", .label "locals", .call ".B" 0, .operate (.compare .eq),
      .goto "ret"]⟩,
    ⟨"_", [.function ".B" 9, .label "loop", .call ":C" 0, .ret, .function ":C" 0, .label "loop",
      .goto "loop"]⟩]

/-- The lookalike program is compiled, and no two of its labels are the same. -/
theorem lookalike_labels_nodup :
    ∃ compiled, compile ⟨"ret", 256, 2⟩ lookalike = .ok compiled ∧
      compiled.code.labels.Nodup ∧
      ∀ name, Image.ofCode compiled.code ≠ .error (.duplicateLabel name) := by
  have accepted : (compile ⟨"ret", 256, 2⟩ lookalike).isOk = true := by decide +kernel
  obtain ⟨compiled, h⟩ := exists_of_isOk accepted
  exact ⟨compiled, h, compiled_labels_nodup h⟩

end Program

end HackVM
