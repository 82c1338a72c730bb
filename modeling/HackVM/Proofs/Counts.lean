import Mathlib
import HackVM.Proofs.Referents
import HackVM.Proofs.Sizes

/-!
# What the statistics count

The statistics of a compilation are put together command by command and function by function, in the
ledger that is passed along. `Statistics.Counts` says what commands and functions add to them, and
`Program.statistics` is what comes out at the end: it can be read off the commands of the program. The
main statement compares them with the code that was put out.
-/

namespace HackVM

namespace Command

/-- Whether the command calls a function. -/
def isCall : Command → Bool
  | .call .. => true
  | _ => false

/-- Whether the command compares two values. -/
def isComparison : Command → Bool
  | .operate (.compare _) => true
  | _ => false

/-- The words under which commands are counted, and what commands they stand for. -/
inductive OfKind : Command → String → Prop where
  | push (segment : Segment) (index : UInt16) : OfKind (.push segment index) "push"
  | pop (segment : Segment) (index : UInt16) : OfKind (.pop segment index) "pop"
  | operate {operation : Operation} {word : String} (called : operation.Called word) :
    OfKind (.operate operation) word
  | label (name : String) : OfKind (.label name) "label"
  | goto (name : String) : OfKind (.goto name) "goto"
  | ifGoto (name : String) : OfKind (.ifGoto name) "if-goto"
  | function (name : String) (locals : UInt16) : OfKind (.function name locals) "function"
  | call (name : String) (arguments : UInt16) : OfKind (.call name arguments) "call"
  | ret : OfKind .ret "return"

/-- A command is counted under its first word. -/
lemma ofKind_iff {command : Command} {word : String} : command.OfKind word ↔ command.kind = word := by
  constructor
  · intro kind
    cases kind with
    | operate called => exact (Operation.called_iff.mp called).symm
    | _ => rfl
  · rintro rfl
    cases command with
    | push segment index => exact .push segment index
    | pop segment index => exact .pop segment index
    | operate operation => exact .operate (Operation.called_iff.mpr rfl)
    | label name => exact .label name
    | goto name => exact .goto name
    | ifGoto name => exact .ifGoto name
    | function name locals => exact .function name locals
    | call name arguments => exact .call name arguments
    | ret => exact .ret

instance (command : Command) (word : String) : Decidable (command.OfKind word) :=
  decidable_of_iff _ ofKind_iff.symm

/-- The call sites of commands are counted by their calls. -/
lemma sum_callSites (commands : List Command) :
    (commands.map callSites).sum = commands.countP isCall := by
  induction commands with
  | nil => rfl
  | cons command rest ih =>
    rw [List.map_cons, List.sum_cons, ih, List.countP_cons, Nat.add_comm]
    cases command <;> rfl

/-- The comparison sites of commands are counted by their comparisons. -/
lemma sum_comparisonSites (commands : List Command) :
    (commands.map comparisonSites).sum = commands.countP isComparison := by
  induction commands with
  | nil => rfl
  | cons command rest ih =>
    rw [List.map_cons, List.sum_cons, ih, List.countP_cons, Nat.add_comm]
    cases command with
    | operate operation => cases operation <;> rfl
    | _ => rfl

/-- There is one size for each function. -/
lemma length_functionSizes (inlineMax : UInt16) (commands : List Command) :
    (functionSizes inlineMax commands).length = commands.countP isFunction := by
  induction commands with
  | nil => rfl
  | cons command rest ih =>
    rw [List.countP_cons, ← ih]
    cases command <;> rfl

end Command

namespace Tally

/-- Counts kinds one after another. -/
def bumpAll (kinds : List String) (tally : Tally) : Tally :=
  kinds.foldl (fun tally kind => tally.bump kind) tally

/-- The kinds stand in increasing order. -/
def Sorted (tally : Tally) : Prop :=
  (tally.map Prod.fst).Pairwise (· < ·)

variable {kind key : String} {number : Nat} {tally : Tally}

lemma sorted_nil : Sorted [] := List.Pairwise.nil

/-- The kinds that have been counted after one more. -/
lemma mem_keys_bump :
    key ∈ (tally.bump kind).map Prod.fst ↔ key = kind ∨ key ∈ tally.map Prod.fst := by
  induction tally with
  | nil => simp [bump]
  | cons entry rest ih =>
    obtain ⟨other, number⟩ := entry
    rw [bump]
    split_ifs with same less
    · simp [same]
    · simp
    · simp only [List.map_cons, List.mem_cons, ih]
      exact or_left_comm

/-- Counting one more keeps the order of the kinds. -/
lemma Sorted.bump (h : Sorted tally) : Sorted (tally.bump kind) := by
  induction tally with
  | nil => exact List.pairwise_singleton _ _
  | cons entry rest ih =>
    obtain ⟨other, number⟩ := entry
    obtain ⟨first, h⟩ := List.pairwise_cons.mp h
    rw [Tally.bump]
    split_ifs with same less
    · exact List.pairwise_cons.mpr ⟨first, h⟩
    · refine List.pairwise_cons.mpr ⟨fun key hk => ?_, List.pairwise_cons.mpr ⟨first, h⟩⟩
      rcases List.mem_cons.mp hk with rfl | hk
      · exact less
      · exact less.trans (first key hk)
    · refine List.pairwise_cons.mpr ⟨fun key hk => ?_, ih h⟩
      rcases mem_keys_bump.mp hk with rfl | hk
      · exact lt_of_le_of_ne (not_lt.mp less) (Ne.symm same)
      · exact first key hk

/-- A kind is looked for in the first entry of a tally and then in the rest. -/
lemma count_cons (key other : String) (number : Nat) (rest : Tally) :
    count key ((other, number) :: rest) = if key = other then number else count key rest := by
  rw [count, lookup_cons_ite]
  split_ifs <;> rfl

/-- Counting one more of a kind changes the count of that kind alone. -/
lemma Sorted.count_bump (h : Sorted tally) (kind key : String) :
    (tally.bump kind).count key = tally.count key + if key = kind then 1 else 0 := by
  induction tally with
  | nil => exact (count_cons key kind 1 []).trans (Nat.zero_add _).symm
  | cons entry rest ih =>
    obtain ⟨other, number⟩ := entry
    obtain ⟨first, h⟩ := List.pairwise_cons.mp h
    by_cases same : kind = other
    · rw [Tally.bump, if_pos same, count_cons, count_cons, same]
      split_ifs <;> rfl
    · by_cases less : kind < other
      · -- A kind in front of all others was not counted before.
        have fresh : kind ∉ rest.map Prod.fst := fun hk => less.asymm (first kind hk)
        have zero : count kind rest = 0 := by
          rw [count, lookup_eq_none_iff_notMem.mpr fresh]
          rfl
        rw [Tally.bump, if_neg same, if_pos less, count_cons, count_cons]
        by_cases e : key = kind
        · rw [e, if_pos rfl, if_pos rfl, if_neg same, zero]
        · rw [if_neg e, if_neg e, Nat.add_zero]
      · rw [Tally.bump, if_neg same, if_neg less, count_cons, count_cons, ih h]
        by_cases e : key = other
        · have ne : key ≠ kind := fun e' => same (e'.symm.trans e)
          rw [if_pos e, if_pos e, if_neg ne, Nat.add_zero]
        · rw [if_neg e, if_neg e]

/-- Counting one more raises the total by one. -/
lemma sum_bump (kind : String) (tally : Tally) :
    ((tally.bump kind).map Prod.snd).sum = (tally.map Prod.snd).sum + 1 := by
  induction tally with
  | nil => rfl
  | cons entry rest ih =>
    obtain ⟨other, number⟩ := entry
    rw [bump]
    split_ifs
    · simp only [List.map_cons, List.sum_cons]
      omega
    · simp only [List.map_cons, List.sum_cons]
      omega
    · simp only [List.map_cons, List.sum_cons, ih]
      omega

lemma bumpAll_cons (kind : String) (kinds : List String) (tally : Tally) :
    bumpAll (kind :: kinds) tally = bumpAll kinds (tally.bump kind) := rfl

/-- Counting kinds keeps their order. -/
lemma Sorted.bumpAll (h : Sorted tally) (kinds : List String) : Sorted (bumpAll kinds tally) := by
  induction kinds generalizing tally with
  | nil => exact h
  | cons kind kinds ih => exact ih h.bump

/-- After kinds have been counted, each has been counted as often as it stands among them. -/
lemma Sorted.count_bumpAll (h : Sorted tally) (kinds : List String) (key : String) :
    (Tally.bumpAll kinds tally).count key = tally.count key + kinds.count key := by
  induction kinds generalizing tally with
  | nil => rfl
  | cons kind kinds ih =>
    rw [bumpAll_cons, ih h.bump, h.count_bump, List.count_cons, Nat.add_assoc,
      Nat.add_comm (kinds.count key)]
    simp only [beq_iff_eq, eq_comm (a := key)]

/-- Counting kinds raises the total by their number. -/
lemma sum_bumpAll (kinds : List String) (tally : Tally) :
    ((bumpAll kinds tally).map Prod.snd).sum = (tally.map Prod.snd).sum + kinds.length := by
  induction kinds generalizing tally with
  | nil => rfl
  | cons kind kinds ih =>
    rw [bumpAll_cons, ih, sum_bump, List.length_cons]
    omega

end Tally

namespace Statistics

/-- Of two functions with their sizes the larger one, and the first if they are equal. -/
def larger (best next : String × Nat) : String × Nat :=
  if best.2 < next.2 then next else best

/-- The largest of functions with their sizes, if it is larger than one that was seen before. -/
def largest (best : String × Nat) (sizes : List (String × Nat)) : String × Nat :=
  sizes.foldl larger best

/-- The largest function is the one seen before or the first of its size, and none is larger. -/
lemma largest_cases (best : String × Nat) (sizes : List (String × Nat)) :
    (largest best sizes = best ∧ ∀ next ∈ sizes, next.2 ≤ best.2) ∨
      ∃ front rest, sizes = front ++ largest best sizes :: rest ∧
        best.2 < (largest best sizes).2 ∧ (∀ next ∈ front, next.2 < (largest best sizes).2) ∧
        ∀ next ∈ rest, next.2 ≤ (largest best sizes).2 := by
  induction sizes generalizing best with
  | nil => exact .inl ⟨rfl, by simp⟩
  | cons first sizes ih =>
    have step : largest best (first :: sizes) = largest (larger best first) sizes := rfl
    rw [step, larger]
    split_ifs with less
    · right
      rcases ih first with ⟨same, bound⟩ | ⟨front, rest, split, above, before, behind⟩
      · rw [same]
        exact ⟨[], sizes, rfl, less, by simp, bound⟩
      · refine ⟨first :: front, rest, by rw [List.cons_append, ← split], less.trans above, ?_, behind⟩
        exact List.forall_mem_cons.mpr ⟨above, before⟩
    · rcases ih best with ⟨same, bound⟩ | ⟨front, rest, split, above, before, behind⟩
      · exact .inl ⟨same, List.forall_mem_cons.mpr ⟨not_lt.mp less, bound⟩⟩
      · refine .inr ⟨first :: front, rest, by rw [List.cons_append, ← split], above, ?_, behind⟩
        exact List.forall_mem_cons.mpr ⟨(not_lt.mp less).trans_lt above, before⟩

/-- The size of the largest function is the maximum of the sizes. -/
lemma max?_sizes {sizes : List (String × Nat)} (nonempty : sizes ≠ []) (name : String) :
    (sizes.map Prod.snd).max? = some (largest (name, 0) sizes).2 := by
  rw [List.max?_eq_some_iff]
  rcases largest_cases (name, 0) sizes with
    ⟨same, bound⟩ | ⟨front, rest, split, -, before, behind⟩
  · rw [same]
    obtain ⟨one, mem⟩ := List.exists_mem_of_ne_nil _ nonempty
    have zero : one.2 = 0 := Nat.le_zero.mp (bound one mem)
    exact ⟨List.mem_map.mpr ⟨one, mem, zero⟩, List.forall_mem_map.mpr bound⟩
  · have mem : largest (name, 0) sizes ∈ front ++ largest (name, 0) sizes :: rest :=
      List.mem_append_right _ List.mem_cons_self
    rw [← split] at mem
    refine ⟨List.mem_map_of_mem mem, List.forall_mem_map.mpr fun next hn => ?_⟩
    rw [split, List.mem_append, List.mem_cons] at hn
    rcases hn with hn | rfl | hn
    · exact (before next hn).le
    · exact le_rfl
    · exact behind next hn

/-- What commands and finished functions add to the statistics. -/
structure Counts (passed : List Command) (sizes : List (String × Nat)) (stats stats' : Statistics) :
    Prop where
  functions : stats'.functions = stats.functions + sizes.length
  commands : stats'.commands = stats.commands + passed.length
  kinds : stats'.kinds = Tally.bumpAll (passed.map Command.kind) stats.kinds
  callSites : stats'.callSites = stats.callSites + (passed.map Command.callSites).sum
  comparisonSites :
    stats'.comparisonSites = stats.comparisonSites + (passed.map Command.comparisonSites).sum
  largest : (stats'.largestName, stats'.largestSize) =
    largest (stats.largestName, stats.largestSize) sizes

variable {stats stats' stats'' : Statistics} {first second : List Command}
  {sizes sizes' : List (String × Nat)}

/-- Nothing adds nothing. -/
lemma counts_nil (stats : Statistics) : Counts [] [] stats stats :=
  ⟨rfl, rfl, rfl, rfl, rfl, rfl⟩

/-- What is added twice in a row is added together. -/
lemma Counts.append (h : Counts first sizes stats stats') (h' : Counts second sizes' stats' stats'') :
    Counts (first ++ second) (sizes ++ sizes') stats stats'' where
  functions := by rw [h'.functions, h.functions, List.length_append, Nat.add_assoc]
  commands := by rw [h'.commands, h.commands, List.length_append, Nat.add_assoc]
  kinds := by
    rw [h'.kinds, h.kinds, List.map_append]
    exact List.foldl_append.symm
  callSites := by rw [h'.callSites, h.callSites, List.map_append, List.sum_append, Nat.add_assoc]
  comparisonSites := by
    rw [h'.comparisonSites, h.comparisonSites, List.map_append, List.sum_append, Nat.add_assoc]
  largest := by
    rw [h'.largest, h.largest]
    exact List.foldl_append.symm

/-- A command that is lowered is counted once, with the sites that it makes. -/
lemma counts_command (stats : Statistics) (command : Command) :
    Counts [command] [] stats
      ((stats.recordSites command.callSites command.comparisonSites).recordCommand command.kind) :=
  ⟨rfl, rfl, rfl, by simp [recordSites, recordCommand], by simp [recordSites, recordCommand], rfl⟩

/-- A function that is recorded adds its size. -/
lemma counts_function (stats : Statistics) (name : String) (size : Nat) :
    Counts [] [(name, size)] stats (stats.recordFunction name size) := by
  by_cases less : stats.largestSize < size
  · refine ⟨?_, ?_, ?_, ?_, ?_, ?_⟩ <;> simp [recordFunction, largest, larger, less, Tally.bumpAll]
  · refine ⟨?_, ?_, ?_, ?_, ?_, ?_⟩ <;> simp [recordFunction, largest, larger, less, Tally.bumpAll]

end Statistics

namespace OpenFunction

/-- The function at hand with the size that it has behind commands that end it. -/
def finished (inlineMax : UInt16) (current? : Option OpenFunction) (commands : List Command) :
    List (String × Nat) :=
  current?.toList.map fun current =>
    (current.scope.function, current.size + Command.totalSize inlineMax (Command.body commands))

/-- Ending the function at hand counts it with the size that it has. -/
lemma closeAny_counts {current? : Option OpenFunction} {ledger ledger' : Ledger}
    (inlineMax : UInt16) (h : closeAny current? ledger = .ok ledger') :
    Statistics.Counts [] (finished inlineMax current? []) ledger.stats ledger'.stats := by
  cases current? with
  | none =>
    cases h
    exact Statistics.counts_nil _
  | some current =>
    simp only [closeAny, close] at h
    cases hu : ledger.unresolved? current.scope with
    | some fault =>
      rw [hu] at h
      cases h
    | none =>
      rw [hu] at h
      cases h
      exact Statistics.counts_function _ _ _

end OpenFunction

namespace Program

variable {inlineMax : UInt16} {unit : String} {commands : List Command} {position : Nat}
  {current? : Option OpenFunction} {ledger ledger' : Ledger} {code : Code}

/-- Lowering a command counts it, whatever is counted before and after. -/
lemma lower_counts {site : Site} {command : Command}
    (h : site.lower inlineMax command ledger = .ok (code, ledger')) :
    Statistics.Counts [command] [] ledger.stats (ledger'.recordCommand command.kind).stats ∧
      code.size = command.size inlineMax := by
  obtain ⟨wf, -, rfl⟩ := (Site.lower_isOk_iff site).mp ⟨code, h⟩
  refine ⟨Statistics.counts_command _ _, ?_⟩
  rw [Site.lower_code h]
  exact (Line.lowers_code wf).size_eq

/-- Lowering the commands of a unit counts them, the function at hand and the functions that start. -/
lemma lowerCommands_counts
    (h : lowerCommands inlineMax unit commands position current? ledger = .ok (code, ledger')) :
    Statistics.Counts commands
      (OpenFunction.finished inlineMax current? commands ++
        Command.functionSizes inlineMax commands) ledger.stats ledger'.stats := by
  induction commands generalizing position current? ledger code with
  | nil =>
    obtain ⟨ledger₁, h, e⟩ := map_eq_ok_iff.mp h
    cases e
    rw [Command.functionSizes, List.append_nil]
    exact OpenFunction.closeAny_counts inlineMax h
  | cons command rest ih =>
    obtain ⟨opened, ledger₁, code₁, ledger₂, code₂, h₁, h₂, h₃, -⟩ :=
      lowerCommands_cons_eq_ok_iff.mp h
    obtain ⟨own, size⟩ := lower_counts h₂
    have later := ih h₃
    rw [size] at later
    cases hf : command.isFunction with
    | true =>
      cases command with
      | function name locals =>
        obtain ⟨closed, rfl⟩ := OpenFunction.enter_function_eq_ok_iff.mp h₁
        have before := OpenFunction.closeAny_counts inlineMax closed
        have whole := (before.append own).append later
        have ended : OpenFunction.finished inlineMax current? (.function name locals :: rest) =
            OpenFunction.finished inlineMax current? [] := rfl
        rw [ended, Command.functionSizes]
        simpa [OpenFunction.finished] using whole
      | _ => cases hf
    | false =>
      obtain ⟨rfl, rfl⟩ := (OpenFunction.enter_other_eq_ok_iff hf).mp h₁
      rw [Command.functionSizes_cons_of_not hf]
      have whole := own.append later
      simpa [OpenFunction.finished, Command.body_cons_of_not hf, Command.totalSize_cons,
        Nat.add_assoc] using whole

/-- Lowering the units of a program counts their commands and their functions. -/
lemma lowerUnits_counts {program : Program}
    (h : lowerUnits inlineMax program ledger = .ok (code, ledger')) :
    Statistics.Counts program.commands (program.functionSizes inlineMax) ledger.stats
      ledger'.stats := by
  induction program generalizing ledger code with
  | nil =>
    cases h
    exact Statistics.counts_nil _
  | cons unit rest ih =>
    obtain ⟨⟨code₁, ledger₁⟩, h₁, h⟩ := bind_eq_ok_iff.mp h
    obtain ⟨⟨code₂, ledger₂⟩, h₂, h⟩ := bind_eq_ok_iff.mp h
    cases h
    exact (lowerCommands_counts h₁).append (ih h₂)

variable {settings : Settings} {program : Program} {compiled : Compiled}

/-- The statistics of an acceptable program, from its commands. -/
def statistics (settings : Settings) (program : Program) : Statistics where
  functions := (program.functionSizes settings.inlineLocals).length
  commands := program.commands.length
  kinds := Tally.bumpAll (program.commands.map Command.kind) []
  instructions := (program.preamble settings).size +
    ((program.functionSizes settings.inlineLocals).map Prod.snd).sum
  callSites := (program.commands.map Command.callSites).sum
  comparisonSites := (program.commands.map Command.comparisonSites).sum
  staticCells := program.statics.toFinset.card
  largestSize := (Statistics.largest ("", 0) (program.functionSizes settings.inlineLocals)).2
  largestName := (Statistics.largest ("", 0) (program.functionSizes settings.inlineLocals)).1

/-- What a compilation counts can be read off the commands of the program. -/
lemma compile_stats (h : compile settings program = .ok compiled) :
    compiled.stats = program.statistics settings := by
  have accepted := Accepted.of_compile h
  have code_eq := compile_code h
  obtain ⟨-, -, ledger, entry, body, ledger', h₃, h₄, h₅, rfl⟩ := compile_eq_ok_iff.mp h
  obtain ⟨-, -, rfl⟩ := defineAll_empty_eq_ok_iff.mp h₃
  obtain ⟨-, passes⟩ := lowerUnits_ok rfl h₅
  have counts := lowerUnits_counts h₅
  have statics : ledger'.statics.length = program.statics.toFinset.card := by
    rw [passes.statics, ← statics_eq]
    exact length_noted_nil _
  obtain ⟨name, size⟩ := Prod.mk.inj counts.largest
  simp only [Ledger.finalStats, statistics, Statistics.mk.injEq]
  refine ⟨?_, ?_, counts.kinds, ?_, ?_, ?_, statics, size, name⟩
  · exact counts.functions.trans (Nat.zero_add _)
  · exact counts.commands.trans (Nat.zero_add _)
  · rw [← accepted.size_assembly, ← code_eq]
  · exact counts.callSites.trans (Nat.zero_add _)
  · exact counts.comparisonSites.trans (Nat.zero_add _)

/-- The commands of a program are counted unit by unit. -/
lemma commandCount_eq (program : Program) : program.commandCount = program.commands.length := by
  induction program with
  | nil => rfl
  | cons unit rest ih =>
    rw [commandCount, ih]
    exact List.length_append.symm

/-- There is one size for each function of a program. -/
lemma length_functionSizes (inlineMax : UInt16) (program : Program) :
    (program.functionSizes inlineMax).length = program.commands.countP Command.isFunction := by
  rw [functionSizes, List.length_flatMap, commands, List.countP_flatMap]
  congr 1
  exact List.map_congr_left fun unit _ => Command.length_functionSizes _ _

/-- The static variables of a program are those that its commands use. -/
lemma card_statics (program : Program) : program.statics.toFinset.card =
    { cell : String × UInt16 | program.UsesStatic cell.1 cell.2 }.ncard := by
  rw [← Set.ncard_coe_finset]
  congr 1
  ext ⟨unit, index⟩
  simp [mem_statics_iff]

/-- The entry function is one of those that are measured. -/
lemma Accepted.functionSizes_ne_nil (accepted : program.Accepted settings) :
    program.functionSizes settings.inlineLocals ≠ [] := by
  rw [← accepted.measured_assembly, measured, Ne, List.map_eq_nil_iff]
  intro none
  have defined := accepted.entryDefined
  rw [functionNames, none] at defined
  cases defined

/-- The statistics of a compiled program tell of its commands and of its code. -/
structure Described (settings : Settings) (program : Program) (compiled : Compiled) : Prop where
  commands : compiled.stats.commands = program.commandCount
  kindsDistinct : (compiled.stats.kinds.map Prod.fst).Nodup
  kindsTotal : (compiled.stats.kinds.map Prod.snd).sum = compiled.stats.commands
  kinds : ∀ kind, compiled.stats.kinds.count kind =
    program.commands.countP fun command => command.OfKind kind
  functions : compiled.stats.functions = program.commands.countP Command.isFunction
  callSites : compiled.stats.callSites = program.commands.countP Command.isCall
  comparisonSites : compiled.stats.comparisonSites = program.commands.countP Command.isComparison
  staticCells : compiled.stats.staticCells =
    { cell : String × UInt16 | program.UsesStatic cell.1 cell.2 }.ncard
  instructions : compiled.stats.instructions = compiled.code.size
  /-- The code starts with the bootstrap and the shared routines, and functions make up the rest. -/
  front : Bootstrap.code settings.stackBase (program.entryLabel settings) ++ Routine.allCode <+:
    compiled.code
  parts : compiled.code.size =
    (Bootstrap.code settings.stackBase (program.entryLabel settings)).size + Routine.allCode.size +
      ((program.measured compiled.code).map Prod.snd).sum
  largestSize : ((program.measured compiled.code).map Prod.snd).max? = some compiled.stats.largestSize
  /-- The first function of the largest size is named, unless all are empty. -/
  largestName :
    (∀ function ∈ program.measured compiled.code, function.2 = 0) ∧ compiled.stats.largestName = "" ∨
      ∃ front rest, program.measured compiled.code =
          front ++ (compiled.stats.largestName, compiled.stats.largestSize) :: rest ∧
        0 < compiled.stats.largestSize ∧
        ∀ function ∈ front, function.2 < compiled.stats.largestSize

/-- The statistics of a compiled program describe it. -/
theorem compiled_stats_described (h : compile settings program = .ok compiled) :
    program.Described settings compiled := by
  have accepted := Accepted.of_compile h
  have code := compile_code h
  have measured : program.measured compiled.code = program.functionSizes settings.inlineLocals := by
    rw [code, accepted.measured_assembly]
  have size : compiled.code.size = (program.statistics settings).instructions := by
    rw [code, accepted.size_assembly]
    rfl
  have sorted : Tally.Sorted (program.statistics settings).kinds :=
    Tally.sorted_nil.bumpAll _
  constructor
  case front =>
    rw [code]
    exact List.prefix_append _ _
  case parts =>
    rw [measured, size, ← Code.size_append]
    rfl
  all_goals rw [compile_stats h]
  case commands => exact (commandCount_eq program).symm
  case kindsDistinct => exact List.Pairwise.imp ne_of_lt sorted
  case kindsTotal =>
    refine (Tally.sum_bumpAll _ _).trans ?_
    rw [List.length_map]
    exact Nat.zero_add _
  case kinds =>
    intro kind
    refine (Tally.sorted_nil.count_bumpAll _ _).trans ?_
    rw [List.count, List.countP_map]
    simp only [Command.ofKind_iff]
    exact Nat.zero_add _
  case functions => exact length_functionSizes _ _
  case callSites => exact Command.sum_callSites _
  case comparisonSites => exact Command.sum_comparisonSites _
  case staticCells => exact card_statics program
  case instructions => exact size.symm
  case largestSize =>
    rw [measured]
    exact Statistics.max?_sizes accepted.functionSizes_ne_nil ""
  case largestName =>
    rw [measured]
    rcases Statistics.largest_cases ("", 0) (program.functionSizes settings.inlineLocals) with
      ⟨same, bound⟩ | ⟨front, rest, split, above, before, -⟩
    · exact .inl ⟨fun function hf => Nat.le_zero.mp (bound function hf), congrArg Prod.fst same⟩
    · exact .inr ⟨front, rest, split, above, before⟩

/-- A function without code, then two functions of one size that call each other. -/
def twins : Program :=
  [⟨"Idle", [.function "Idle.rest" 0, .label "HERE"]⟩,
    ⟨"Main", [.function "Main.one" 3, .push .constant 7, .call "Main.two" 0, .operate (.compare .lt),
      .ret, .function "Main.two" 3, .push .statics 4, .call "Main.one" 0, .operate (.compare .eq),
      .ret]⟩]

/-- The statistics of the twins describe them, and the first of the two is named. -/
theorem twins_stats_described :
    ∃ compiled, compile ⟨"Main.one", 256, 2⟩ twins = .ok compiled ∧
      twins.Described ⟨"Main.one", 256, 2⟩ compiled ∧
      (compiled.stats.largestName, compiled.stats.largestSize) = ("Main.one", 31) := by
  have counted : ((compile ⟨"Main.one", 256, 2⟩ twins).toOption.map fun compiled =>
      (compiled.stats.largestName, compiled.stats.largestSize)) = some ("Main.one", 31) := by
    decide +kernel
  obtain ⟨compiled, h, largest⟩ := Option.map_eq_some_iff.mp counted
  have accepted := toOption_eq_some_iff.mp h
  exact ⟨compiled, accepted, compiled_stats_described accepted, largest⟩

end Program

end HackVM
