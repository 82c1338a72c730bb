import Mathlib
import HackVM.Proofs.Positions

/-!
# The code of a function

The lines of a function stand together: behind the line that starts it come its other lines, and then
another function starts or the program ends. So the code between the entry label of a function and the
next entry label, which is what `Program.functionCode` cuts out, is the code of the lines of that
function and of no others.
-/

namespace HackVM

namespace Line

/-- A line that starts no function goes on with the function in front of it. -/
def Follows (line next : Line) : Prop :=
  next.command.isFunction = true ∨ next.scope = line.scope

/-- The functions that start among lines start in the first part of them or in the second. -/
lemma starts_append (first second : List Line) :
    starts (first ++ second) = starts first ++ starts second :=
  List.filterMap_append

/-- A line that starts a function starts it first. -/
lemma mem_starts_self {line : Line} (h : line.command.isFunction = true) (rest : List Line) :
    line.scope ∈ starts (line :: rest) := by
  obtain ⟨scope, command⟩ := line
  cases command with
  | function => exact List.mem_cons_self
  | _ => cases h

/-- Lines that follow one another belong to the first function or to one that starts behind it. -/
lemma scope_mem_of_isChain {line : Line} {lines : List Line}
    (chain : (line :: lines).IsChain Follows) {other : Line} (h : other ∈ line :: lines) :
    other.scope = line.scope ∨ other.scope ∈ starts lines := by
  induction lines generalizing line with
  | nil =>
    cases List.mem_singleton.mp h
    exact .inl rfl
  | cons next rest ih =>
    rcases List.mem_cons.mp h with rfl | h
    · exact .inl rfl
    · obtain ⟨follows, chain⟩ := List.isChain_cons_cons.mp chain
      have later : ∀ scope ∈ starts rest, scope ∈ starts (next :: rest) :=
        fun scope hs => ((List.sublist_cons_self next rest).filterMap _).mem hs
      rcases ih chain h with same | started
      · rcases follows with starting | same'
        · exact .inr (same ▸ mem_starts_self starting rest)
        · exact .inl (same.trans same')
      · exact .inr (later _ started)

/-- Lines that follow one another behind the start of a function belong to functions that they start. -/
lemma scope_mem_starts {lines : List Line} (chain : lines.IsChain Follows)
    (head : ∀ line ∈ lines.head?, line.command.isFunction = true) {line : Line} (h : line ∈ lines) :
    line.scope ∈ starts lines := by
  cases lines with
  | nil => cases h
  | cons first rest =>
    have started := mem_starts_self (head first rfl) rest
    rcases scope_mem_of_isChain chain h with same | later
    · exact same ▸ started
    · exact ((List.sublist_cons_self first rest).filterMap _).mem later

/-- Until the next function starts, lines that follow one another belong to the same function. -/
lemma scope_of_mem_takeWhile {line : Line} {lines : List Line}
    (chain : (line :: lines).IsChain Follows) {other : Line}
    (h : other ∈ lines.takeWhile fun next => !next.command.isFunction) :
    other.scope = line.scope ∧ other.command.isFunction = false := by
  have inside : other.command.isFunction = false := by simpa using List.mem_takeWhile_imp h
  refine ⟨?_, inside⟩
  induction lines generalizing line with
  | nil => cases h
  | cons next rest ih =>
    obtain ⟨follows, chain⟩ := List.isChain_cons_cons.mp chain
    rw [List.takeWhile_cons] at h
    split_ifs at h with inside'
    · have same : next.scope = line.scope := by
        rcases follows with starting | same
        · simp [starting] at inside'
        · exact same
      rcases List.mem_cons.mp h with rfl | h
      · exact same
      · exact (ih chain h).trans same
    · cases h

end Line

/-- A command that starts no function belongs to the one around it. -/
lemma Command.within_of_not {command : Command} (h : command.isFunction = false) (current : String) :
    command.within current = current := by
  cases command with
  | function => cases h
  | _ => rfl

/-- The lines of a unit follow one another. -/
lemma SourceUnit.isChain_linesFrom (unit current : String) (commands : List Command) :
    (linesFrom unit current commands).IsChain Line.Follows := by
  induction commands generalizing current with
  | nil => exact .nil
  | cons command rest ih =>
    refine (ih (command.within current)).cons fun next hn => ?_
    cases rest with
    | nil => cases hn
    | cons other rest =>
      cases hn
      cases starting : other.isFunction with
      | true => exact .inl starting
      | false => exact .inr (congrArg (Scope.mk unit) (Command.within_of_not starting _))

namespace Program

variable {settings : Settings} {program : Program} {scope : Scope}

/-- The first line of a program starts a function if the first lines of its units do. -/
lemma head_lines (starts : ∀ unit ∈ program, ∀ command ∈ unit.commands.head?,
      command.isFunction = true) :
    ∀ line ∈ program.lines.head?, line.command.isFunction = true := by
  induction program with
  | nil => exact fun line h => nomatch h
  | cons unit rest ih =>
    intro line h
    rw [lines, List.flatMap_cons] at h
    cases e : unit.commands with
    | nil =>
      rw [e] at h
      exact ih (fun unit hu => starts unit (.tail _ hu)) line h
    | cons command commands =>
      rw [e] at h
      cases h
      exact starts unit List.mem_cons_self command (by rw [e]; rfl)

/-- The lines of a program follow one another if its units start with functions. -/
lemma isChain_lines (starts : ∀ unit ∈ program, ∀ command ∈ unit.commands.head?,
      command.isFunction = true) : program.lines.IsChain Line.Follows := by
  induction program with
  | nil => exact .nil
  | cons unit rest ih =>
    have starts' : ∀ unit ∈ rest, ∀ command ∈ unit.commands.head?, command.isFunction = true :=
      fun unit hu => starts unit (.tail _ hu)
    rw [lines, List.flatMap_cons]
    refine (SourceUnit.isChain_linesFrom _ _ _).append (ih starts') ?_
    exact fun line _ next hn => .inl (head_lines starts' next hn)

/-- The lines of a program divided at a function: lines of other functions in front, the line that
starts the function, its other lines, and lines of other functions behind. -/
structure Divides (program : Program) (scope : Scope) (locals : UInt16)
    (front body rest : List Line) : Prop where
  split : program.lines = front ++ ⟨scope, .function scope.function locals⟩ :: (body ++ rest)
  before : ∀ line ∈ front, line.scope ≠ scope
  within : ∀ line ∈ body, line.scope = scope ∧ line.command.isFunction = false
  behind : ∀ line ∈ rest, line.scope ≠ scope
  next : ∀ line ∈ rest.head?, line.command.isFunction = true

/-- Where a function starts in an acceptable program, the lines up to the next start are its own. -/
lemma Accepted.divides_of_split (accepted : program.Accepted settings) {locals : UInt16}
    {front behind : List Line}
    (e : program.lines = front ++ ⟨scope, .function scope.function locals⟩ :: behind) :
    program.Divides scope locals front (behind.takeWhile fun line => !line.command.isFunction)
      (behind.dropWhile fun line => !line.command.isFunction) := by
  have chain := isChain_lines accepted.starts
  have head := head_lines accepted.starts
  have nodup := accepted.nodup_starts
  let inside : Line → Bool := fun line => !line.command.isFunction
  have split : behind = behind.takeWhile inside ++ behind.dropWhile inside :=
    List.takeWhile_append_dropWhile.symm
  have next : ∀ line ∈ (behind.dropWhile inside).head?, line.command.isFunction = true := by
    intro line hl
    have := List.head?_dropWhile_not inside behind
    simpa [inside, Option.mem_def.mp hl] using this
  rw [e] at chain head nodup
  have chain' := chain.right_of_append
  -- No function starts twice, so neither what is in front nor what is behind belongs to this one.
  rw [Line.starts_append, Line.starts_cons] at nodup
  obtain ⟨-, nodup', distinct⟩ := List.nodup_append.mp nodup
  have fresh : scope ∉ Line.starts behind := (List.nodup_cons.mp nodup').1
  refine ⟨by rw [← split, e], ?_, fun line hl => Line.scope_of_mem_takeWhile chain' hl, ?_, next⟩
  · intro line hl same
    have head' : ∀ line ∈ front.head?, line.command.isFunction = true := by
      intro line hl
      exact head line (List.mem_head?_append_of_mem_head? hl)
    have started := Line.scope_mem_starts chain.left_of_append head' hl
    exact distinct _ started scope List.mem_cons_self same
  · intro line hl same
    have started := Line.scope_mem_starts (chain'.tail.suffix (List.dropWhile_suffix _)) next hl
    refine fresh (same ▸ ?_)
    exact ((List.dropWhile_suffix inside).sublist.filterMap _).mem started

/-- A line that starts a function belongs to it. -/
lemma function_of_mem_lines {name : String} {locals : UInt16}
    (h : ⟨scope, .function name locals⟩ ∈ program.lines) : scope.function = name := by
  obtain ⟨unit, -, h⟩ := List.mem_flatMap.mp h
  exact SourceUnit.function_of_mem_linesFrom h

/-- The entry labels of the functions of a program, as they stand in its code. -/
def entries (program : Program) : Code :=
  program.definitions.map fun (name, unit) => .label (Scope.entry ⟨unit, name⟩)

/-- The entries of a program are the entry labels of its functions. -/
lemma mem_entries_iff {instruction : Instruction} :
    instruction ∈ program.entries ↔ ∃ scope locals,
      ⟨scope, .function scope.function locals⟩ ∈ program.lines ∧
        instruction = .label scope.entry := by
  simp only [entries, List.mem_map, Prod.exists, mem_definitions_iff]
  constructor
  · rintro ⟨name, unit, ⟨locals, h⟩, rfl⟩
    exact ⟨⟨unit, name⟩, locals, h, rfl⟩
  · rintro ⟨scope, locals, h, rfl⟩
    exact ⟨scope.function, scope.unit, ⟨locals, h⟩, rfl⟩

/-- The code of a function in the code of its program: what stands behind its entry label, up to the
next entry label of a function or to the end. -/
def functionCode (program : Program) (scope : Scope) (code : Code) : Code :=
  (code.dropWhile (· ≠ .label scope.entry)).tail.takeWhile (· ∉ program.entries)

end Program

/-- The labels of code are those that it declares. -/
lemma Code.mem_labels_iff {code : Code} {name : String} :
    name ∈ code.labels ↔ .label name ∈ code := by
  rw [labels, List.mem_filterMap]
  constructor
  · rintro ⟨instruction, hi, e⟩
    cases instruction with
    | label other =>
      cases e
      exact hi
    | _ => cases e
  · exact fun h => ⟨_, h, rfl⟩

/-- The start of a function declares a label only if it clears its locals by a loop. -/
lemma Scope.labels_prologue (scope : Scope) (locals inlineMax : UInt16) :
    (scope.prologue locals inlineMax).labels =
      if locals ≤ inlineMax then [] else [scope.localsLoop] := by
  rw [prologue]
  split_ifs
  · exact Code.labels_replicate_pushComp _ _
  · rfl

namespace Line

variable {inlineMax : UInt16} {returns : Nat} {line : Line} {mark : Mark}

/-- Only the start of a function marks an entry. -/
lemma not_entry_of_mem_marks (h : mark ∈ line.marks inlineMax returns)
    (inside : line.command.isFunction = false) (scope : Scope) : mark ≠ .entry scope := by
  rintro rfl
  obtain ⟨scope', command⟩ := line
  cases command with
  | function => cases inside
  | operate operation => cases operation <;> simp [marks] at h
  | _ => simp [marks] at h

end Line

namespace Program

variable {settings : Settings} {program : Program} {scope : Scope} {locals : UInt16}
  {front body rest : List Line}

/-- The entry of a function is a clean mark. -/
lemma Accepted.clean_entry (accepted : program.Accepted settings)
    (h : ⟨scope, .function scope.function locals⟩ ∈ program.lines) : (Mark.entry scope).Clean := by
  obtain ⟨unit, function, wf⟩ := accepted.line_legal h
  have marked : Mark.entry scope ∈
      Line.marks 0 0 ⟨scope, .function scope.function locals⟩ := List.mem_cons_self
  exact (Line.clean_of_mem_marks unit function wf marked).2

/-- A label that a line sets besides the entry of a function is no entry label. -/
lemma Accepted.label_notMem_entries (accepted : program.Accepted settings) {line : Line}
    {returns : Nat} {mark : Mark} (hl : line ∈ program.lines)
    (hm : mark ∈ line.marks settings.inlineLocals returns) (inner : ∀ scope, mark ≠ .entry scope) :
    .label mark.text ∉ program.entries := by
  intro h
  obtain ⟨scope, locals, hs, e⟩ := mem_entries_iff.mp h
  obtain ⟨unit, function, wf⟩ := accepted.line_legal hl
  have clean := (Line.clean_of_mem_marks unit function wf hm).2
  exact inner scope (Mark.text_inj clean (accepted.clean_entry hs) (Instruction.label.inj e))

namespace Divides

/-- The line in front of a body starts the function. -/
lemma start_mem (divides : program.Divides scope locals front body rest) :
    ⟨scope, .function scope.function locals⟩ ∈ program.lines := by
  rw [divides.split]
  simp

/-- The lines of a body are lines of the program. -/
lemma body_subset (divides : program.Divides scope locals front body rest) {line : Line}
    (h : line ∈ body) : line ∈ program.lines := by
  rw [divides.split]
  simp [h]

/-- The code of a program around one of its functions. -/
lemma assembly_eq (divides : program.Divides scope locals front body rest)
    (accepted : program.Accepted settings) :
    program.assembly settings =
      program.preamble settings ++
          Line.codeOf program.definitions settings.inlineLocals 0 front ++
        .label scope.entry ::
          (scope.prologue locals settings.inlineLocals ++
            Line.codeOf program.definitions settings.inlineLocals
              (front.map fun line => line.command.returnLabels).sum body ++
            Line.codeOf program.definitions settings.inlineLocals
              ((front ++ body).map fun line => line.command.returnLabels).sum rest) := by
  have fits : locals ≤ maxImmediate := (accepted.line_legal divides.start_mem).2.2
  rw [assembly, divides.split, Line.codeOf_append, Line.codeOf, Line.code_function fits,
    Line.codeOf_append, List.map_append, List.sum_append]
  simp [Command.returnLabels, Command.callSites, Command.comparisonSites]

/-- No entry label stands in the code of a function. -/
lemma notMem_entries (divides : program.Divides scope locals front body rest)
    (accepted : program.Accepted settings) {returns : Nat} {instruction : Instruction}
    (h : instruction ∈ scope.prologue locals settings.inlineLocals ++
      Line.codeOf program.definitions settings.inlineLocals returns body) :
    instruction ∉ program.entries := by
  intro entry
  obtain ⟨scope', locals', hs, rfl⟩ := mem_entries_iff.mp entry
  have wf : ∀ line ∈ body, line.command.WellFormed (program.definitions.map Prod.fst) :=
    fun line hl => (accepted.line_legal (divides.body_subset hl)).2.2
  rw [← Code.mem_labels_iff, Code.labels_append, Scope.labels_prologue,
    Line.labels_codeOf wf] at h
  rcases List.mem_append.mp h with h | h
  · split_ifs at h with inlined
    · cases h
    · have marked : Mark.loop scope ∈
          Line.marks settings.inlineLocals 0 ⟨scope, .function scope.function locals⟩ := by
        simp [Line.marks, inlined]
      rw [List.mem_singleton.mp h] at entry
      exact accepted.label_notMem_entries divides.start_mem marked (by simp) entry
  · obtain ⟨mark, hm, e⟩ := List.mem_map.mp h
    obtain ⟨line, hl, returns', hm⟩ := Line.exists_of_mem_marksOf hm
    rw [← e] at entry
    exact accepted.label_notMem_entries (divides.body_subset hl) hm
      (Line.not_entry_of_mem_marks hm (divides.within line hl).2) entry

/-- What follows the code of a function is an entry label, if anything does. -/
lemma head_entry (divides : program.Divides scope locals front body rest)
    (accepted : program.Accepted settings) (returns : Nat) :
    ∀ instruction ∈ (Line.codeOf program.definitions settings.inlineLocals returns rest).head?,
      instruction ∈ program.entries := by
  intro instruction h
  cases e : rest with
  | nil =>
    rw [e] at h
    cases h
  | cons line more =>
    rw [e] at h
    have starting := divides.next line (by rw [e]; rfl)
    have hl : line ∈ program.lines := by
      rw [divides.split, e]
      simp
    obtain ⟨scope', command⟩ := line
    cases command with
    | function name locals' =>
      have fits : locals' ≤ maxImmediate := (accepted.line_legal hl).2.2
      obtain rfl := function_of_mem_lines hl
      rw [Line.codeOf, Line.code_function fits] at h
      cases h
      exact mem_entries_iff.mpr ⟨scope', locals', hl, rfl⟩
    | _ => cases starting

/-- Between the entry label of a function and the next one stands the code of the function's lines. -/
lemma functionCode_eq (divides : program.Divides scope locals front body rest)
    (accepted : program.Accepted settings) :
    program.functionCode scope (program.assembly settings) =
      scope.prologue locals settings.inlineLocals ++
        Line.codeOf program.definitions settings.inlineLocals
          (front.map fun line => line.command.returnLabels).sum body := by
  have distinct := accepted.nodup_labels
  rw [divides.assembly_eq accepted] at distinct ⊢
  have before : ∀ instruction ∈ program.preamble settings ++
      Line.codeOf program.definitions settings.inlineLocals 0 front,
      decide (instruction ≠ .label scope.entry) = true := by
    intro instruction hi
    refine decide_eq_true ?_
    rintro rfl
    rw [Code.labels_append, Code.labels_cons_label, List.nodup_append] at distinct
    exact distinct.2.2 _ (Code.mem_labels_iff.mpr hi) _ List.mem_cons_self rfl
  rw [functionCode, List.dropWhile_append_of_pos before, List.dropWhile_cons_of_neg (by simp),
    List.tail_cons, List.takeWhile_append_of_pos
      fun instruction hi => decide_eq_true (divides.notMem_entries accepted hi)]
  refine List.append_right_eq_self.mpr (List.takeWhile_eq_nil_iff.mpr fun hl => ?_)
  have entry := divides.head_entry accepted _ _
    (List.head?_eq_getElem? ▸ List.getElem?_eq_getElem hl)
  simpa using entry

end Divides

end Program

end HackVM
