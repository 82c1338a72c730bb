import Mathlib
import HackVM.Proofs.Positions
import HackVM.Proofs.Stack

/-!
# The inlining threshold

The settings say up to how many local variables a function clears them without a loop. The threshold
changes the code of a function and with it the sizes that are counted, and nothing else: two compilations
that differ in it run side by side, with ledgers that differ in their counts alone, until one fault stops
both or both succeed. And whichever code is chosen, it clears the same cells.
-/

namespace HackVM

/-- Two computations with one outcome: both are stopped by the same fault, or both have a result and the
results are related. -/
inductive Concur {ε α β : Type} (r : α → β → Prop) : Except ε α → Except ε β → Prop where
  | error (fault : ε) : Concur r (.error fault) (.error fault)
  | ok {a : α} {b : β} (h : r a b) : Concur r (.ok a) (.ok b)

namespace Concur

variable {ε α β γ δ : Type} {r : α → β → Prop} {s : γ → δ → Prop} {x : Except ε α} {y : Except ε β}

lemma bind {f : α → Except ε γ} {g : β → Except ε δ} (h : Concur r x y)
    (hfg : ∀ a b, r a b → Concur s (f a) (g b)) : Concur s (x >>= f) (y >>= g) := by
  cases h with
  | error fault => exact .error fault
  | ok h => exact hfg _ _ h

/-- A check that both computations make. -/
lemma bind_same {f : α → Except ε γ} {g : α → Except ε δ} (x : Except ε α)
    (hfg : ∀ a, Concur s (f a) (g a)) : Concur s (x >>= f) (x >>= g) := by
  cases x with
  | error fault => exact .error fault
  | ok a => exact hfg a

lemma map {f : α → γ} {g : β → δ} (h : Concur r x y) (hfg : ∀ a b, r a b → s (f a) (g b)) :
    Concur s (f <$> x) (g <$> y) := by
  cases h with
  | error fault => exact .error fault
  | ok h => exact .ok (hfg _ _ h)

lemma exists_ok_iff (h : Concur r x y) : (∃ a, x = .ok a) ↔ ∃ b, y = .ok b := by
  cases h <;> simp

lemma eq_error_iff (h : Concur r x y) (fault : ε) : x = .error fault ↔ y = .error fault := by
  cases h <;> simp

end Concur

/-- A ledger that differs in the counts alone. -/
def Ledger.Recounts (ledger ledger' : Ledger) : Prop :=
  ∃ stats, ledger' = { ledger with stats }

/-- The same function, of which more or less code may have been written. -/
def OpenFunction.Resizes (current current' : OpenFunction) : Prop :=
  current'.scope = current.scope

namespace Site

variable (site : Site) (ledger : Ledger) (stats : Statistics)

lemma reserve_concur (segment : Segment) (index : UInt16) :
    Concur Ledger.Recounts (site.reserve segment index ledger)
      (site.reserve segment index { ledger with stats }) := by
  cases segment with
  | statics =>
    rw [reserve, reserve, Ledger.reserve_eq, Ledger.reserve_eq]
    dsimp only
    split_ifs with room
    · exact .ok ⟨stats, rfl⟩
    · exact .error _
  | _ => exact .ok ⟨stats, rfl⟩

/-- Commands are refused for the same faults at any threshold and with any counts. -/
lemma lower_concur (inlineMax inlineMax' : UInt16) (command : Command) :
    Concur (fun lowered lowered' => lowered.2.Recounts lowered'.2)
      (site.lower inlineMax command ledger) (site.lower inlineMax' command { ledger with stats }) := by
  cases command with
  | push segment index =>
    refine .bind_same _ fun location => ?_
    refine .bind (site.reserve_concur ledger stats segment index) fun after after' h => ?_
    exact .ok h
  | pop segment index =>
    refine .bind_same _ fun location => ?_
    cases location.popCode? with
    | none => exact .error _
    | some code =>
      refine .bind (site.reserve_concur ledger stats segment index) fun after after' h => ?_
      exact .ok h
  | operate operation =>
    cases operation with
    | compare comparison => exact .ok ⟨_, rfl⟩
    | _ => exact .ok ⟨stats, rfl⟩
  | label name =>
    refine .bind_same _ fun _ => ?_
    unfold Ledger.declareLabel
    dsimp only
    split_ifs with declared
    · exact .error _
    · exact .ok ⟨stats, rfl⟩
  | goto name => exact .bind_same _ fun _ => .ok ⟨stats, rfl⟩
  | ifGoto name => exact .bind_same _ fun _ => .ok ⟨stats, rfl⟩
  | function name locals =>
    unfold lower lowerFunction
    dsimp only
    split_ifs with large
    · exact .error _
    · exact .ok ⟨stats, rfl⟩
  | call name arguments =>
    unfold lower lowerCall
    dsimp only [Ledger.entry?]
    split_ifs with large
    · exact .error _
    · cases ledger.functions.lookup name with
      | none => exact .error _
      | some unit => exact .ok ⟨_, rfl⟩
  | ret => exact .ok ⟨stats, rfl⟩

end Site

namespace OpenFunction

variable {current? current?' : Option OpenFunction} (ledger : Ledger) (stats : Statistics)

lemma closeAny_concur (same : Option.Rel Resizes current? current?') :
    Concur Ledger.Recounts (closeAny current? ledger) (closeAny current?' { ledger with stats }) := by
  cases same with
  | none => exact .ok ⟨stats, rfl⟩
  | @some current current' h =>
    unfold closeAny close Ledger.unresolved?
    dsimp only
    rw [h]
    cases ledger.labels.unresolved? with
    | some label => exact .error _
    | none => exact .ok ⟨_, rfl⟩

lemma enter_concur (unit : String) (position : Nat) (command : Command)
    (same : Option.Rel Resizes current? current?') :
    Concur (fun entered entered' => entered.1.Resizes entered'.1 ∧ entered.2.Recounts entered'.2)
      (enter unit position current? command ledger)
      (enter unit position current?' command { ledger with stats }) := by
  cases command with
  | function name locals =>
    exact .map (closeAny_concur ledger stats same) fun after after' h => ⟨rfl, h⟩
  | _ =>
    cases same with
    | none => exact .error _
    | some h => exact .ok ⟨h, stats, rfl⟩

end OpenFunction

namespace Program

variable (inlineMax inlineMax' : UInt16)

/-- The commands of a unit are lowered side by side. -/
lemma lowerCommands_concur (unit : String) (commands : List Command) (position : Nat)
    {current? current?' : Option OpenFunction} (ledger : Ledger) (stats : Statistics)
    (same : Option.Rel OpenFunction.Resizes current? current?') :
    Concur (fun lowered lowered' => lowered.2.Recounts lowered'.2)
      (lowerCommands inlineMax unit commands position current? ledger)
      (lowerCommands inlineMax' unit commands position current?' { ledger with stats }) := by
  induction commands generalizing position current? current?' ledger stats with
  | nil => exact .map (OpenFunction.closeAny_concur ledger stats same) fun after after' h => h
  | cons command rest ih =>
    refine .bind (OpenFunction.enter_concur ledger stats unit position command same) ?_
    rintro ⟨opened, entered⟩ ⟨opened', -⟩ ⟨resized, stats', rfl⟩
    have scope : opened'.scope = opened.scope := resized
    simp only [scope]
    refine .bind (Site.lower_concur _ entered stats' inlineMax inlineMax' command) ?_
    rintro ⟨code, lowered⟩ ⟨code', -⟩ ⟨stats'', rfl⟩
    -- From here on the sizes of the function at hand may differ.
    refine .bind (ih (position + 1) (lowered.recordCommand command.kind) _ (.some rfl)) ?_
    rintro ⟨more, after⟩ ⟨more', after'⟩ h
    exact .ok h

/-- The units of a program are lowered side by side. -/
lemma lowerUnits_concur (program : Program) (ledger : Ledger) (stats : Statistics) :
    Concur (fun lowered lowered' => lowered.2.Recounts lowered'.2)
      (lowerUnits inlineMax program ledger)
      (lowerUnits inlineMax' program { ledger with stats }) := by
  induction program generalizing ledger stats with
  | nil => exact .ok ⟨stats, rfl⟩
  | cons unit rest ih =>
    refine .bind (lowerCommands_concur inlineMax inlineMax' _ _ 0 ledger stats .none) ?_
    rintro ⟨code, lowered⟩ ⟨code', -⟩ ⟨stats', rfl⟩
    refine .bind (ih lowered stats') ?_
    rintro ⟨more, after⟩ ⟨more', after'⟩ h
    exact .ok h

/-- Two compilations that differ in the threshold have one outcome. -/
lemma compile_concur (settings : Settings) (program : Program) (inlineMax : UInt16) :
    Concur (fun _ _ => True) (compile settings program)
      (compile { settings with inlineLocals := inlineMax } program) := by
  refine .bind_same settings.check fun _ => ?_
  refine .bind_same (program.checkUnitNames []) fun _ => ?_
  refine .bind_same (program.defineAll .empty) fun ledger => ?_
  dsimp only
  cases ledger.entry? settings.entryPoint with
  | none => exact .error _
  | some entry =>
    refine .bind (lowerUnits_concur settings.inlineLocals inlineMax program ledger ledger.stats) ?_
    exact fun _ _ _ => .ok trivial

end Program

/-- One memory is another with cells cleared on top of a stack that ends at a cell: the stack ends behind
them now, and no other cell is touched. -/
structure Clears (ram ram' : Memory) (s count : Nat) : Prop where
  sp : peek ram' 0 = word (s + count)
  zero : ∀ cell, s ≤ cell → cell < s + count → peek ram' cell = 0
  others : ∀ cell, cell ≠ 0 → ¬(s ≤ cell ∧ cell < s + count) → peek ram' cell = peek ram cell

/-- Zeros pushed one after the other clear cells. -/
lemma clears_cleared {ram : Memory} {s count : Nat} (sp : peek ram 0 = word s) (pos : 0 < s)
    (h : s + count ≤ ramSize) : Clears ram (cleared ram s count) s count := by
  induction count generalizing ram s with
  | zero => exact ⟨sp, fun cell low high => absurd high (by omega), fun _ _ _ => rfl⟩
  | succ count ih =>
    have behind : Clears (pushed ram s 0) (cleared ram s (count + 1)) (s + 1) count :=
      ih (peek_pushed_zero pos 0) (Nat.succ_pos s) (by omega)
    refine ⟨?_, ?_, ?_⟩
    · rw [behind.sp, Nat.add_right_comm, Nat.add_assoc]
    · intro cell low high
      by_cases first : cell = s
      · subst first
        rw [behind.others cell pos.ne' (by omega)]
        exact peek_poke_self (by omega)
      · exact behind.zero cell (by omega) (by omega)
    · intro cell register outside
      rw [behind.others cell register (by omega), pushed, peek_poke_of_ne (by omega),
        peek_poke_of_ne register.symm]

/-- A `function` command of a unit starts a line of its own function. -/
lemma SourceUnit.mem_linesFrom_of_function {unit current name : String} {locals : UInt16}
    {commands : List Command} (h : .function name locals ∈ commands) :
    ⟨⟨unit, name⟩, .function name locals⟩ ∈ linesFrom unit current commands := by
  induction commands generalizing current with
  | nil => cases h
  | cons command rest ih =>
    rw [linesFrom]
    rcases List.mem_cons.mp h with rfl | h
    · exact List.mem_cons_self
    · exact .tail _ (ih h)

namespace Program

variable {settings : Settings} {program : Program} {image : Image} {unit : SourceUnit}
  {name : String} {locals : UInt16}

/-- A `function` command of a unit starts a line of the program. -/
lemma mem_lines_of_function (hu : unit ∈ program) (hf : .function name locals ∈ unit.commands) :
    ⟨⟨unit.name, name⟩, .function name locals⟩ ∈ program.lines :=
  List.mem_flatMap.mpr ⟨unit, hu, SourceUnit.mem_linesFrom_of_function hf⟩

/-- The count of local variables of an acceptable program fits an instruction. -/
lemma Accepted.locals_le (accepted : program.Accepted settings) (hu : unit ∈ program)
    (hf : .function name locals ∈ unit.commands) : locals ≤ maxImmediate :=
  accepted.wellFormed unit hu _ hf

/-- The compiled code of a function starts with its entry label and the code that clears its local
variables. -/
lemma Loaded.exists_prologue (loaded : Loaded settings program image) (hu : unit ∈ program)
    (hf : .function name locals ∈ unit.commands) :
    ∃ entry front rest, image.labels.lookup (Scope.entry ⟨unit.name, name⟩) = some entry ∧
      program.assembly settings = front ++ (.label (Scope.entry ⟨unit.name, name⟩) ::
        Scope.prologue ⟨unit.name, name⟩ locals settings.inlineLocals) ++ rest ∧
      front.size = entry ∧
      image.Holds entry (Scope.prologue ⟨unit.name, name⟩ locals settings.inlineLocals) := by
  obtain ⟨index, h⟩ := List.mem_iff_getElem?.mp (mem_lines_of_function hu hf)
  have code := assembly_eq settings h
  have holds := loaded.holds_line h
  rw [lineCode, Line.code_function (loaded.accepted.locals_le hu hf)] at code holds
  rw [← List.append_assoc] at code
  exact ⟨_, _, _, (loaded.places_entry h).listed, code, Code.size_append _ _, holds.2⟩

/-- The threshold for inlining never changes meaning. Compilations that differ in it alone both succeed or
both are stopped, by the same fault. And whatever it is, a computer at the entry label of a function of a
loaded program comes to the first instruction behind the code that clears the local variables, with as many
cells cleared on top of the stack and every other cell as it was. -/
theorem inlineLocals_keeps_meaning (settings : Settings) (program : Program) :
    (∀ inlineMax,
      ((∃ compiled, compile settings program = .ok compiled) ↔
        ∃ compiled, compile { settings with inlineLocals := inlineMax } program = .ok compiled) ∧
      ∀ fault, compile settings program = .error fault ↔
        compile { settings with inlineLocals := inlineMax } program = .error fault) ∧
    ∀ compiled image, compile settings program = .ok compiled →
      Image.ofCode compiled.code = .ok image →
      ∀ unit ∈ program, ∀ name locals, .function name locals ∈ unit.commands →
      ∃ entry front rest, image.labels.lookup (Scope.entry ⟨unit.name, name⟩) = some entry ∧
        compiled.code = front ++ (.label (Scope.entry ⟨unit.name, name⟩) ::
          Scope.prologue ⟨unit.name, name⟩ locals settings.inlineLocals) ++ rest ∧
        front.size = entry ∧
        ∀ (computer : Computer) (s : Nat), computer.pc = entry → peek computer.ram 0 = word s →
          0 < s → s + locals.toNat ≤ ramSize →
          ∃ after, image.Reaches computer after ∧
            after.pc =
              entry + (Scope.prologue ⟨unit.name, name⟩ locals settings.inlineLocals).size ∧
            Clears computer.ram after.ram s locals.toNat := by
  constructor
  · intro inlineMax
    have concur := compile_concur settings program inlineMax
    exact ⟨concur.exists_ok_iff, concur.eq_error_iff⟩
  · intro compiled image h loads unit hu name locals hf
    have loaded := Loaded.of_compile h loads
    obtain ⟨entry, front, rest, listed, code, size, holds⟩ := loaded.exists_prologue hu hf
    refine ⟨entry, front, rest, listed, (compile_code h).trans code, size, ?_⟩
    rintro ⟨ram, a, d, pc⟩ s rfl sp pos room
    obtain ⟨a', d', reached⟩ := holds.reaches_prologue (loaded.accepted.locals_le hu hf) sp pos room
    exact ⟨_, reached, rfl, clears_cleared sp pos room⟩

/-- A program whose function has three local variables. -/
def hoarder : Program :=
  [⟨"Main", [.function "main" 3, .push .constant 0, .ret]⟩]

/-- With a threshold of zero the local variables are cleared by a loop, over whatever is there. -/
theorem hoarder_locals_cleared :
    ∃ compiled image entry after, compile ⟨"main", 256, 0⟩ hoarder = .ok compiled ∧
      Image.ofCode compiled.code = .ok image ∧ image.labels.lookup "Main.main" = some entry ∧
      let ram := poke (poke Computer.initial.ram 0 (word 300)) 301 (word 7)
      image.Reaches ⟨ram, 0, 0, entry⟩ after ∧ after.pc = entry + 9 ∧ Clears ram after.ram 300 3 := by
  have accepted : ((compile ⟨"main", 256, 0⟩ hoarder).toOption.bind fun compiled =>
      (Image.ofCode compiled.code).toOption).isSome = true := by
    decide +kernel
  obtain ⟨image, accepted⟩ := Option.isSome_iff_exists.mp accepted
  obtain ⟨compiled, h, loads⟩ := Option.bind_eq_some_iff.mp accepted
  rw [toOption_eq_some_iff] at h loads
  obtain ⟨entry, front, rest, listed, -, -, clears⟩ :=
    (inlineLocals_keeps_meaning ⟨"main", 256, 0⟩ hoarder).2 compiled image h loads _
      List.mem_cons_self "main" 3 List.mem_cons_self
  have sp : peek (poke (poke Computer.initial.ram 0 (word 300)) 301 (word 7)) 0 = word 300 := by
    rw [peek_poke_of_ne (by decide), peek_poke_self zero_lt_ramSize]
  obtain ⟨after, reached, pc, cleared⟩ := clears ⟨_, 0, 0, entry⟩ 300 rfl sp (by decide) (by decide)
  exact ⟨compiled, image, entry, after, h, loads, listed, reached, pc, cleared⟩

end Program

end HackVM
