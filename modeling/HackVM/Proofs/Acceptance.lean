import Mathlib
import HackVM.Proofs.Lowering

/-!
# Which programs are accepted

The checks of a compilation are spread over several loops, and what they find depends on what the
ledger holds at that moment. This file follows the ledger through the loops and shows that together
they accept exactly the programs that `Program.Accepted` describes.
-/

namespace HackVM

/-- Two ledgers that agree but for the labels of the function at hand and the counts. -/
structure Ledger.Agrees (ledger ledger' : Ledger) : Prop where
  functions : ledger'.functions = ledger.functions
  returns : ledger'.returns = ledger.returns
  statics : ledger'.statics = ledger.statics

/-- What lines add to the parts of a ledger that outlive a function. -/
structure Ledger.Passes (lines : List Line) (ledger ledger' : Ledger) : Prop where
  functions : ledger'.functions = ledger.functions
  returns : ledger'.returns =
    ledger.returns + (lines.map fun line => line.command.returnLabels).sum
  statics : ledger'.statics = noted ledger.statics (lines.filterMap Line.static?)

namespace Ledger

variable {ledger ledger' ledger'' : Ledger} {line : Line} {first second : List Line}

/-- A ledger passes a line that it admits. -/
lemma passes_after (ledger : Ledger) (line : Line) : Passes [line] ledger (ledger.after line) := by
  refine ⟨rfl, by simp [after], ?_⟩
  cases h : line.static? <;> simp [after, h]

/-- Lines can be passed one after another. -/
lemma Passes.append (h : Passes first ledger ledger') (h' : Passes second ledger' ledger'') :
    Passes (first ++ second) ledger ledger'' := by
  refine ⟨h'.functions.trans h.functions, ?_, ?_⟩
  · rw [h'.returns, h.returns, List.map_append, List.sum_append, Nat.add_assoc]
  · rw [h'.statics, h.statics, List.filterMap_append, noted_append]

/-- A change of labels and counts in front of lines does not matter to what they add. -/
lemma Agrees.passes (h : Agrees ledger ledger') (h' : Passes first ledger' ledger'') :
    Passes first ledger ledger'' :=
  ⟨h'.functions.trans h.functions, h.returns ▸ h'.returns, h.statics ▸ h'.statics⟩

/-- A change of labels and counts behind lines does not matter to what they add. -/
lemma Passes.agrees (h : Passes first ledger ledger') (h' : Agrees ledger' ledger'') :
    Passes first ledger ledger'' :=
  ⟨h'.functions.trans h.functions, h'.returns.trans h.returns, h'.statics.trans h.statics⟩

/-- Counting a command changes only the counts. -/
lemma agrees_recordCommand (ledger : Ledger) (kind : String) :
    Agrees ledger (ledger.recordCommand kind) :=
  ⟨rfl, rfl, rfl⟩

end Ledger

/-- What the commands of a unit must satisfy to be lowered from a ledger on, inside a function or in
front of the first one. The labels of the function at hand are those in the ledger together with those
of the commands up to the next function. -/
structure Ledger.Fits (ledger : Ledger) (unit : String) (inside : Bool) (commands : List Command) :
    Prop where
  starts : inside = false → ∀ command ∈ commands.head?, command.isFunction = true
  wellFormed : ∀ command ∈ commands, command.WellFormed (ledger.functions.map Prod.fst)
  atHand : LabelUse.Consistent
    ⟨ledger.labels.declared ++ Command.declared (Command.body commands),
      ledger.labels.referenced ++ Command.referenced (Command.body commands)⟩
  bodies : ∀ body ∈ Command.bodies commands, (Command.labelUse body).Consistent
  statics : (noted ledger.statics
    ((commands.filterMap Command.static?).map (unit, ·))).length ≤ staticLimit

namespace Ledger

variable {ledger ledger₁ : Ledger} {unit name : String} {inside : Bool} {command : Command}
  {locals : UInt16} {rest : List Command}

/-- Nothing is left to lower when every jump of the function at hand finds its label. -/
lemma fits_nil_iff (hd : ledger.labels.declared.Nodup)
    (hs : ledger.statics.length ≤ staticLimit) :
    ledger.Fits unit inside [] ↔
      ∀ label ∈ ledger.labels.referenced, label ∈ ledger.labels.declared := by
  constructor
  · intro h
    simpa [Command.body, Command.declared, Command.referenced] using h.atHand.resolved
  · intro h
    refine ⟨by simp, by simp, ⟨?_, ?_⟩, by simp [Command.bodies], hs⟩
    · simpa [Command.body, Command.declared] using hd
    · simpa [Command.body, Command.declared, Command.referenced] using h

/-- In front of a `function` command every jump of the function at hand has found its label. -/
lemma Fits.resolved (h : ledger.Fits unit inside (.function name locals :: rest)) :
    ∀ label ∈ ledger.labels.referenced, label ∈ ledger.labels.declared := by
  simpa [Command.body_function, Command.declared, Command.referenced] using h.atHand.resolved

/-- At a `function` command the labels of the function at hand are complete, and the commands behind
it start with no labels. -/
lemma fits_function_iff (hd : ledger.labels.declared.Nodup) (agrees : ledger.Agrees ledger₁)
    (empty : ledger₁.labels = .empty) :
    ledger.Fits unit inside (.function name locals :: rest) ↔
      (∀ label ∈ ledger.labels.referenced, label ∈ ledger.labels.declared) ∧
        locals ≤ maxImmediate ∧ ledger₁.Fits unit true rest := by
  constructor
  · intro h
    refine ⟨h.resolved, h.wellFormed _ List.mem_cons_self, nofun, ?_, ?_, ?_, ?_⟩
    · rw [agrees.functions]
      exact fun command hc => h.wellFormed command (.tail _ hc)
    · -- With no labels in the new ledger, those at hand are the ones of the new function's body.
      rw [empty]
      exact h.bodies _ List.mem_cons_self
    · exact fun body hb => h.bodies body (.tail _ hb)
    · rw [agrees.statics]
      exact h.statics
  · rintro ⟨resolved, hl, h⟩
    refine ⟨fun _ _ hc => by cases hc; rfl, ?_, ⟨?_, ?_⟩, ?_, ?_⟩
    · intro command hc
      rcases List.mem_cons.mp hc with rfl | hc
      · exact hl
      · exact agrees.functions ▸ h.wellFormed command hc
    · simpa [Command.body_function, Command.declared] using hd
    · simpa [Command.body_function, Command.declared, Command.referenced] using resolved
    · intro body hb
      rcases List.mem_cons.mp hb with rfl | hb
      · have := h.atHand
        rw [empty] at this
        exact this
      · exact h.bodies body hb
    · have := h.statics
      rwa [agrees.statics] at this

/-- Counting a command does not matter to what fits. -/
lemma fits_recordCommand_iff {kind : String} :
    (ledger.recordCommand kind).Fits unit inside rest ↔ ledger.Fits unit inside rest :=
  ⟨fun h => ⟨h.starts, h.wellFormed, h.atHand, h.bodies, h.statics⟩,
    fun h => ⟨h.starts, h.wellFormed, h.atHand, h.bodies, h.statics⟩⟩

/-- In front of the first function of a unit no labels are at hand. -/
lemma fits_front_iff (hl : ledger.labels = .empty) :
    ledger.Fits unit false rest ↔
      (∀ command ∈ rest.head?, command.isFunction = true) ∧
      (∀ command ∈ rest, command.WellFormed (ledger.functions.map Prod.fst)) ∧
      (∀ body ∈ Command.bodies rest, (Command.labelUse body).Consistent) ∧
      (noted ledger.statics ((rest.filterMap Command.static?).map (unit, ·))).length ≤
        staticLimit := by
  constructor
  · intro h
    exact ⟨h.starts rfl, h.wellFormed, h.bodies, h.statics⟩
  · rintro ⟨starts, wf, bodies, statics⟩
    refine ⟨fun _ => starts, wf, ?_, bodies, statics⟩
    rw [hl, Command.body_eq_nil starts]
    exact ⟨List.nodup_nil, by simp [LabelUse.empty, Command.referenced]⟩

/-- The static variables of a unit's commands begin with that of the first line. -/
lemma statics_cons {scope : Scope} (hu : scope.unit = unit) (statics : List (String × UInt16)) :
    noted statics (((command :: rest).filterMap Command.static?).map (unit, ·)) =
      noted (noted statics (Line.static? ⟨scope, command⟩).toList)
        ((rest.filterMap Command.static?).map (unit, ·)) := by
  rw [← noted_append, Line.static?, hu]
  cases h : command.static? <;> simp [h]

/-- A ledger admits a command if the labels at hand stay different and the static variables few. -/
lemma admits_iff (line : Line) (hd : ledger.labels.declared.Nodup)
    (hs : ledger.statics.length ≤ staticLimit) :
    ledger.Admits line ↔
      (ledger.after line).labels.declared.Nodup ∧
        (ledger.after line).statics.length ≤ staticLimit := by
  have fresh : (∀ label ∈ line.command.declares?, label ∉ ledger.labels.declared) ↔
      (ledger.after line).labels.declared.Nodup := by
    cases h : line.command.declares? with
    | none => simpa [after, h] using hd
    | some label =>
      simp only [after, h, Option.toList_some, List.nodup_append, hd, List.nodup_singleton,
        List.mem_singleton, Option.mem_def, Option.some.injEq, forall_eq', true_and]
      exact ⟨fun hn a ha b hb e => hn (hb ▸ e ▸ ha), fun hn hm => hn label hm label rfl rfl⟩
  have room : (∀ cell ∈ line.static?, cell ∈ ledger.statics ∨ ledger.statics.length < staticLimit) ↔
      (ledger.after line).statics.length ≤ staticLimit := by
    cases h : line.static? with
    | none => simpa [after, h] using hs
    | some cell =>
      simp only [after, h, Option.toList_some, noted_singleton, Option.mem_def, Option.some.injEq,
        forall_eq']
      by_cases hm : cell ∈ ledger.statics
      · rw [if_pos hm]
        exact ⟨fun _ => hs, fun _ => .inl hm⟩
      · rw [if_neg hm, or_iff_right hm, List.length_append]
        exact Nat.lt_iff_add_one_le
  rw [← fresh, ← room]
  exact ⟨fun h => ⟨h.fresh, h.room⟩, fun h => ⟨h.1, h.2⟩⟩

/-- Any other command adds its own labels and static variable to those at hand. -/
lemma fits_other_iff {scope : Scope} (hf : command.isFunction = false) (hu : scope.unit = unit)
    (hd : ledger.labels.declared.Nodup) (hs : ledger.statics.length ≤ staticLimit) :
    ledger.Fits unit inside (command :: rest) ↔
      inside = true ∧ command.WellFormed (ledger.functions.map Prod.fst) ∧
        ledger.Admits ⟨scope, command⟩ ∧ (ledger.after ⟨scope, command⟩).Fits unit true rest := by
  have atHand : (⟨ledger.labels.declared ++ Command.declared (Command.body (command :: rest)),
        ledger.labels.referenced ++ Command.referenced (Command.body (command :: rest))⟩ :
          LabelUse) =
      ⟨(ledger.after ⟨scope, command⟩).labels.declared ++ Command.declared (Command.body rest),
        (ledger.after ⟨scope, command⟩).labels.referenced ++
          Command.referenced (Command.body rest)⟩ := by
    simp [after, Command.body_cons_of_not hf, Command.declared_cons, Command.referenced_cons]
  constructor
  · intro h
    have consistent := h.atHand
    rw [atHand] at consistent
    have statics := h.statics
    rw [statics_cons hu] at statics
    refine ⟨?_, h.wellFormed _ List.mem_cons_self, ?_, by simp, ?_, consistent, ?_, statics⟩
    · cases inside with
      | true => rfl
      | false => exact absurd (h.starts rfl command rfl) (by simp [hf])
    · rw [admits_iff _ hd hs]
      exact ⟨(List.nodup_append.mp consistent.nodup).1, (length_le_noted _ _).trans statics⟩
    · exact fun command hc => h.wellFormed command (.tail _ hc)
    · rw [← Command.bodies_cons_of_not hf]
      exact h.bodies
  · rintro ⟨rfl, wf, _, h⟩
    refine ⟨by simp, ?_, atHand ▸ h.atHand, ?_, ?_⟩
    · intro command hc
      rcases List.mem_cons.mp hc with rfl | hc
      · exact wf
      · exact h.wellFormed command hc
    · rw [Command.bodies_cons_of_not hf]
      exact h.bodies
    · rw [statics_cons hu]
      exact h.statics

end Ledger

namespace OpenFunction

variable {current? : Option OpenFunction} {ledger ledger' : Ledger}

/-- A function can be ended if it declares every label it jumps to. -/
lemma closeAny_isOk_iff (hc : current? = none → ledger.labels = .empty) :
    (∃ ledger', closeAny current? ledger = .ok ledger') ↔
      ∀ label ∈ ledger.labels.referenced, label ∈ ledger.labels.declared := by
  cases current? with
  | none =>
    rw [hc rfl]
    exact ⟨fun _ => nofun, fun _ => ⟨ledger, rfl⟩⟩
  | some current =>
    have unresolved : ledger.unresolved? current.scope = none ↔
        ∀ label ∈ ledger.labels.referenced, label ∈ ledger.labels.declared := by
      simp [Ledger.unresolved?, LabelUse.unresolved?]
    rw [← unresolved]
    simp only [closeAny, close]
    cases ledger.unresolved? current.scope <;> simp

/-- Ending a function forgets its labels and otherwise only counts. -/
lemma closeAny_ok (hc : current? = none → ledger.labels = .empty)
    (h : closeAny current? ledger = .ok ledger') :
    ledger.Agrees ledger' ∧ ledger'.labels = .empty := by
  cases current? with
  | none =>
    cases h
    exact ⟨⟨rfl, rfl, rfl⟩, hc rfl⟩
  | some current =>
    simp only [closeAny, close] at h
    cases hu : ledger.unresolved? current.scope with
    | some fault =>
      rw [hu] at h
      exact nomatch h
    | none =>
      rw [hu] at h
      cases h
      exact ⟨⟨rfl, rfl, rfl⟩, rfl⟩

/-- A `function` command ends the function at hand and starts its own. -/
lemma enter_function_eq_ok_iff {unit name : String} {position : Nat} {locals : UInt16}
    {opened : OpenFunction} :
    enter unit position current? (.function name locals) ledger = .ok (opened, ledger') ↔
      closeAny current? ledger = .ok ledger' ∧ opened = ⟨⟨unit, name⟩, 0⟩ := by
  rw [enter, map_eq_ok_iff]
  constructor
  · rintro ⟨ledger₁, h, e⟩
    cases e
    exact ⟨h, rfl⟩
  · rintro ⟨h, rfl⟩
    exact ⟨ledger', h, rfl⟩

/-- Any other command needs a function at hand and stays in it. -/
lemma enter_other_eq_ok_iff {unit : String} {position : Nat} {command : Command}
    {opened : OpenFunction} (hf : command.isFunction = false) :
    enter unit position current? command ledger = .ok (opened, ledger') ↔
      current? = some opened ∧ ledger' = ledger := by
  cases command with
  | function name locals => exact nomatch hf
  | _ =>
    cases current? with
    | none => exact ⟨nofun, fun h => nomatch h.1⟩
    | some current =>
      simp only [enter, Except.ok.injEq, Prod.mk.injEq, Option.some.injEq]
      exact and_congr_right' eq_comm

end OpenFunction

namespace Program

variable {inlineMax : UInt16} {unit current : String} {commands : List Command} {position : Nat}
  {current? : Option OpenFunction} {ledger ledger' : Ledger} {code : Code}

/-- Lowering commands is entering the function of the first one, lowering it, and going on. -/
lemma lowerCommands_cons_eq_ok_iff {command : Command} {rest : List Command} {code : Code} :
    lowerCommands inlineMax unit (command :: rest) position current? ledger = .ok (code, ledger') ↔
      ∃ opened ledger₁ code₁ ledger₂ code₂,
        OpenFunction.enter unit position current? command ledger = .ok (opened, ledger₁) ∧
        Site.lower ⟨opened.scope, position⟩ inlineMax command ledger₁ = .ok (code₁, ledger₂) ∧
        lowerCommands inlineMax unit rest (position + 1)
          (some { opened with size := opened.size + code₁.size })
          (ledger₂.recordCommand command.kind) = .ok (code₂, ledger') ∧
        code = code₁ ++ code₂ := by
  rw [lowerCommands]
  constructor
  · intro h
    obtain ⟨⟨opened, ledger₁⟩, h₁, h⟩ := bind_eq_ok_iff.mp h
    obtain ⟨⟨code₁, ledger₂⟩, h₂, h⟩ := bind_eq_ok_iff.mp h
    obtain ⟨⟨code₂, ledger₃⟩, h₃, h⟩ := bind_eq_ok_iff.mp h
    cases h
    exact ⟨opened, ledger₁, code₁, ledger₂, code₂, h₁, h₂, h₃, rfl⟩
  · rintro ⟨opened, ledger₁, code₁, ledger₂, code₂, h₁, h₂, h₃, rfl⟩
    refine bind_eq_ok_iff.mpr ⟨_, h₁, bind_eq_ok_iff.mpr ⟨_, h₂, bind_eq_ok_iff.mpr ⟨_, h₃, rfl⟩⟩⟩

/-- Entering a function that is lowered, one is in the function that the command belongs to, and
nothing but labels and counts has changed. -/
lemma enter_ok {command : Command} {opened : OpenFunction}
    (hu : ∀ opened ∈ current?, opened.scope = ⟨unit, current⟩)
    (hc : current? = none → ledger.labels = .empty)
    (h : OpenFunction.enter unit position current? command ledger = .ok (opened, ledger')) :
    opened.scope = ⟨unit, command.within current⟩ ∧ ledger.Agrees ledger' := by
  cases hf : command.isFunction with
  | true =>
    cases command with
    | function name locals =>
      obtain ⟨closed, rfl⟩ := OpenFunction.enter_function_eq_ok_iff.mp h
      exact ⟨rfl, (OpenFunction.closeAny_ok hc closed).1⟩
    | _ => exact nomatch hf
  | false =>
    obtain ⟨rfl, rfl⟩ := (OpenFunction.enter_other_eq_ok_iff hf).mp h
    refine ⟨?_, ⟨rfl, rfl, rfl⟩⟩
    rw [hu opened rfl]
    cases command with
    | function name locals => exact nomatch hf
    | _ => rfl

/-- Lowering commands that are accepted gives the code of their lines, adds to the ledger what the
lines say, and ends with no function at hand. -/
lemma lowerCommands_ok (current : String) (hu : ∀ opened ∈ current?, opened.scope = ⟨unit, current⟩)
    (hc : current? = none → ledger.labels = .empty)
    (h : lowerCommands inlineMax unit commands position current? ledger = .ok (code, ledger')) :
    code = Line.codeOf ledger.functions inlineMax ledger.returns
        (SourceUnit.linesFrom unit current commands) ∧
      ledger.Passes (SourceUnit.linesFrom unit current commands) ledger' ∧
      ledger'.labels = .empty := by
  induction commands generalizing position current? ledger code current with
  | nil =>
    obtain ⟨ledger₁, h, e⟩ := map_eq_ok_iff.mp h
    cases e
    obtain ⟨agrees, labels⟩ := OpenFunction.closeAny_ok hc h
    exact ⟨rfl, ⟨agrees.functions, agrees.returns, agrees.statics⟩, labels⟩
  | cons command rest ih =>
    obtain ⟨opened, ledger₁, code₁, ledger₂, code₂, h₁, h₂, h₃, rfl⟩ :=
      lowerCommands_cons_eq_ok_iff.mp h
    obtain ⟨scope, agrees⟩ := enter_ok hu hc h₁
    have code₁_eq := Site.lower_code h₂
    obtain ⟨_, _, rfl⟩ := (Site.lower_isOk_iff _).mp ⟨code₁, h₂⟩
    have hu' : ∀ next ∈ some { opened with size := opened.size + code₁.size },
        next.scope = ⟨unit, command.within current⟩ := by
      intro next hn
      cases hn
      exact scope
    obtain ⟨code₂_eq, passes, labels⟩ := ih _ hu' nofun h₃
    refine ⟨?_, ?_, labels⟩
    · rw [SourceUnit.linesFrom, Line.codeOf, ← agrees.functions, ← agrees.returns, ← scope,
        code₁_eq, code₂_eq]
      rfl
    · have step := ledger₁.passes_after ⟨opened.scope, command⟩
      have counted := step.agrees (Ledger.agrees_recordCommand _ command.kind)
      have whole := agrees.passes (counted.append passes)
      rwa [scope] at whole

/-- Lowering commands succeeds when the first one can be entered and, from there, lowered together with
the rest. -/
lemma lowerCommands_cons_isOk_iff {command : Command} {rest : List Command} :
    (∃ code ledger', lowerCommands inlineMax unit (command :: rest) position current? ledger =
      .ok (code, ledger')) ↔
      ∃ opened ledger₁,
        OpenFunction.enter unit position current? command ledger = .ok (opened, ledger₁) ∧
        ∃ code₁ ledger₂, Site.lower ⟨opened.scope, position⟩ inlineMax command ledger₁ =
            .ok (code₁, ledger₂) ∧
          ∃ code₂ ledger', lowerCommands inlineMax unit rest (position + 1)
            (some { opened with size := opened.size + code₁.size })
            (ledger₂.recordCommand command.kind) = .ok (code₂, ledger') := by
  simp only [lowerCommands_cons_eq_ok_iff]
  constructor
  · rintro ⟨_, ledger', opened, ledger₁, code₁, ledger₂, code₂, h₁, h₂, h₃, _⟩
    exact ⟨opened, ledger₁, h₁, code₁, ledger₂, h₂, code₂, ledger', h₃⟩
  · rintro ⟨opened, ledger₁, h₁, code₁, ledger₂, h₂, code₂, ledger', h₃⟩
    exact ⟨_, ledger', opened, ledger₁, code₁, ledger₂, code₂, h₁, h₂, h₃, rfl⟩

/-- Inside a function, a command and the rest are lowered when the command is well formed and admitted
and the rest fits the ledger after it; `ih` says so of the rest alone. -/
lemma lower_then_isOk_iff (inlineMax : UInt16) (position : Nat) (opened : OpenFunction)
    (command : Command) {rest : List Command} (hd : ledger.labels.declared.Nodup)
    (hs : ledger.statics.length ≤ staticLimit)
    (ih : ∀ size (next : Ledger), next.labels.declared.Nodup → next.statics.length ≤ staticLimit →
      ((∃ code ledger', lowerCommands inlineMax unit rest (position + 1)
        (some { opened with size := size }) next = .ok (code, ledger')) ↔
          next.Fits unit true rest)) :
    (∃ code₁ ledger₂, Site.lower ⟨opened.scope, position⟩ inlineMax command ledger =
        .ok (code₁, ledger₂) ∧
      ∃ code₂ ledger', lowerCommands inlineMax unit rest (position + 1)
        (some { opened with size := opened.size + code₁.size })
        (ledger₂.recordCommand command.kind) = .ok (code₂, ledger')) ↔
      command.WellFormed (ledger.functions.map Prod.fst) ∧
        ledger.Admits ⟨opened.scope, command⟩ ∧
        (ledger.after ⟨opened.scope, command⟩).Fits unit true rest := by
  have next (size : Nat) (admits : ledger.Admits ⟨opened.scope, command⟩) :=
    have counts := (Ledger.admits_iff _ hd hs).mp admits
    (ih size ((ledger.after ⟨opened.scope, command⟩).recordCommand command.kind) counts.1
      counts.2).trans Ledger.fits_recordCommand_iff
  constructor
  · rintro ⟨code₁, ledger₂, h₁, h₂⟩
    obtain ⟨wf, admits, rfl⟩ := (Site.lower_isOk_iff _).mp ⟨code₁, h₁⟩
    exact ⟨wf, admits, (next _ admits).mp h₂⟩
  · rintro ⟨wf, admits, fits⟩
    obtain ⟨code₁, h₁⟩ := (Site.lower_isOk_iff ⟨opened.scope, position⟩).mpr
      ⟨wf, admits, rfl⟩
    exact ⟨code₁, _, h₁, (next _ admits).mpr fits⟩

/-- The commands of a unit are lowered exactly if they fit the ledger. -/
lemma lowerCommands_isOk_iff (inlineMax : UInt16) (unit : String) (commands : List Command)
    (position : Nat) (current? : Option OpenFunction)
    (hu : ∀ opened ∈ current?, opened.scope.unit = unit)
    (hc : current? = none → ledger.labels = .empty) (hd : ledger.labels.declared.Nodup)
    (hs : ledger.statics.length ≤ staticLimit) :
    (∃ code ledger', lowerCommands inlineMax unit commands position current? ledger =
      .ok (code, ledger')) ↔ ledger.Fits unit current?.isSome commands := by
  induction commands generalizing ledger position current? with
  | nil =>
    rw [Ledger.fits_nil_iff hd hs, ← OpenFunction.closeAny_isOk_iff hc]
    simp only [lowerCommands, map_eq_ok_iff, Prod.mk.injEq]
    constructor
    · rintro ⟨_, _, ledger', h, _⟩
      exact ⟨ledger', h⟩
    · rintro ⟨ledger', h⟩
      exact ⟨_, _, ledger', h, rfl, rfl⟩
  | cons command rest ih =>
    -- The command and the rest, once its function is open: the induction is on the rest, with a new
    -- ledger and a function at hand.
    have tail (opened : OpenFunction) (hu₁ : opened.scope.unit = unit) (ledger₁ : Ledger)
        (hd₁ : ledger₁.labels.declared.Nodup) (hs₁ : ledger₁.statics.length ≤ staticLimit) :=
      lower_then_isOk_iff inlineMax position opened command hd₁ hs₁ fun size next hd₂ hs₂ =>
        ih (position + 1) (some { opened with size := size }) (fun _ h => by cases h; exact hu₁)
          nofun hd₂ hs₂
    rw [lowerCommands_cons_isOk_iff]
    cases hf : command.isFunction with
    | true =>
      cases command with
      | function name locals =>
        constructor
        · rintro ⟨opened, ledger₁, h₁, h⟩
          obtain ⟨closed, rfl⟩ := OpenFunction.enter_function_eq_ok_iff.mp h₁
          obtain ⟨agrees, empty⟩ := OpenFunction.closeAny_ok hc closed
          obtain ⟨wf, _, fits⟩ := (tail _ rfl ledger₁ (empty ▸ List.nodup_nil)
            (agrees.statics ▸ hs)).mp h
          -- The command itself leaves the ledger alone; only closing the last function changed it.
          rw [Ledger.after_eq_self _ _ rfl rfl rfl rfl rfl] at fits
          exact (Ledger.fits_function_iff hd agrees empty).mpr
            ⟨(OpenFunction.closeAny_isOk_iff hc).mp ⟨_, closed⟩, wf, fits⟩
        · intro h
          obtain ⟨ledger₁, closed⟩ := (OpenFunction.closeAny_isOk_iff hc).mpr h.resolved
          obtain ⟨agrees, empty⟩ := OpenFunction.closeAny_ok hc closed
          obtain ⟨_, wf, fits⟩ := (Ledger.fits_function_iff hd agrees empty).mp h
          refine ⟨_, ledger₁, OpenFunction.enter_function_eq_ok_iff.mpr ⟨closed, rfl⟩, ?_⟩
          refine (tail _ rfl ledger₁ (empty ▸ List.nodup_nil) (agrees.statics ▸ hs)).mpr
            ⟨wf, ledger₁.admits_of_none _ rfl rfl, ?_⟩
          rwa [Ledger.after_eq_self _ _ rfl rfl rfl rfl rfl]
      | _ => exact nomatch hf
    | false =>
      constructor
      · rintro ⟨opened, ledger₁, h₁, h⟩
        obtain ⟨rfl, rfl⟩ := (OpenFunction.enter_other_eq_ok_iff hf).mp h₁
        have hu₁ := hu opened rfl
        exact (Ledger.fits_other_iff hf hu₁ hd hs).mpr ⟨rfl, (tail opened hu₁ _ hd hs).mp h⟩
      · intro h
        cases current? with
        | none => exact absurd (h.starts rfl command rfl) (by simp [hf])
        | some opened =>
          have hu₁ := hu opened rfl
          refine ⟨opened, ledger, (OpenFunction.enter_other_eq_ok_iff hf).mpr ⟨rfl, rfl⟩, ?_⟩
          exact (tail opened hu₁ ledger hd hs).mpr ((Ledger.fits_other_iff hf hu₁ hd hs).mp h).2

/-- Lowering units that are accepted gives the code of their lines and adds to the ledger what the
lines say. -/
lemma lowerUnits_ok {program : Program} (hl : ledger.labels = .empty)
    (h : lowerUnits inlineMax program ledger = .ok (code, ledger')) :
    code = Line.codeOf ledger.functions inlineMax ledger.returns program.lines ∧
      ledger.Passes program.lines ledger' := by
  induction program generalizing ledger code with
  | nil =>
    cases h
    exact ⟨rfl, rfl, rfl, rfl⟩
  | cons unit rest ih =>
    obtain ⟨⟨code₁, ledger₁⟩, h₁, h⟩ := bind_eq_ok_iff.mp h
    obtain ⟨⟨code₂, ledger₂⟩, h₂, h⟩ := bind_eq_ok_iff.mp h
    cases h
    obtain ⟨code₁_eq, passes₁, labels⟩ := lowerCommands_ok "" (by simp) (fun _ => hl) h₁
    obtain ⟨code₂_eq, passes₂⟩ := ih labels h₂
    refine ⟨?_, passes₁.append passes₂⟩
    rw [lines, List.flatMap_cons, Line.codeOf_append, code₁_eq, code₂_eq, passes₁.functions,
      passes₁.returns]
    rfl

/-- Units are lowered exactly if each starts with a function, its commands are well formed and its
labels fit together, and all of them together use few enough static variables. -/
lemma lowerUnits_isOk_iff {program : Program} (hl : ledger.labels = .empty)
    (hs : ledger.statics.length ≤ staticLimit) :
    (∃ code ledger', lowerUnits inlineMax program ledger = .ok (code, ledger')) ↔
      (∀ unit ∈ program, ∀ command ∈ unit.commands.head?, command.isFunction = true) ∧
      (∀ unit ∈ program, ∀ command ∈ unit.commands,
        command.WellFormed (ledger.functions.map Prod.fst)) ∧
      (∀ unit ∈ program, ∀ body ∈ Command.bodies unit.commands,
        (Command.labelUse body).Consistent) ∧
      (noted ledger.statics program.statics).length ≤ staticLimit := by
  induction program generalizing ledger with
  | nil =>
    exact ⟨fun _ => ⟨nofun, nofun, nofun, hs⟩, fun _ => ⟨_, _, rfl⟩⟩
  | cons unit rest ih =>
    have first := lowerCommands_isOk_iff inlineMax unit.name unit.commands 0 none
      (fun _ h => nomatch h) (fun _ => hl) (hl ▸ List.nodup_nil) hs
    rw [Option.isSome_none, Ledger.fits_front_iff hl] at first
    have total : noted ledger.statics (statics (unit :: rest)) =
        noted (noted ledger.statics ((unit.commands.filterMap Command.static?).map (unit.name, ·)))
          (statics rest) := by
      rw [statics, List.flatMap_cons, noted_append]
      rfl
    -- what is known of the rest once the first unit is lowered
    have later {code₁ : Code} {ledger₁ : Ledger} (h₁ : lowerCommands inlineMax unit.name
        unit.commands 0 none ledger = .ok (code₁, ledger₁)) :
        (∃ code ledger', lowerUnits inlineMax rest ledger₁ = .ok (code, ledger')) ↔
          (∀ unit ∈ rest, ∀ command ∈ unit.commands.head?, command.isFunction = true) ∧
          (∀ unit ∈ rest, ∀ command ∈ unit.commands,
            command.WellFormed (ledger.functions.map Prod.fst)) ∧
          (∀ unit ∈ rest, ∀ body ∈ Command.bodies unit.commands,
            (Command.labelUse body).Consistent) ∧
          (noted ledger.statics (statics (unit :: rest))).length ≤ staticLimit := by
      obtain ⟨-, passes, labels⟩ := lowerCommands_ok "" (by simp) (fun _ => hl) h₁
      have statics₁ := passes.statics
      rw [SourceUnit.statics_linesFrom] at statics₁
      obtain ⟨-, -, -, budget⟩ := first.mp ⟨_, _, h₁⟩
      rw [ih labels (statics₁ ▸ budget), passes.functions, statics₁, total]
    simp only [List.forall_mem_cons]
    constructor
    · rintro ⟨code, ledger', h⟩
      obtain ⟨⟨code₁, ledger₁⟩, h₁, h⟩ := bind_eq_ok_iff.mp h
      obtain ⟨⟨code₂, ledger₂⟩, h₂, -⟩ := bind_eq_ok_iff.mp h
      obtain ⟨starts, wf, bodies, -⟩ := first.mp ⟨_, _, h₁⟩
      obtain ⟨starts', wf', bodies', budget⟩ := (later h₁).mp ⟨_, _, h₂⟩
      exact ⟨⟨starts, starts'⟩, ⟨wf, wf'⟩, ⟨bodies, bodies'⟩, budget⟩
    · rintro ⟨⟨starts, starts'⟩, ⟨wf, wf'⟩, ⟨bodies, bodies'⟩, budget⟩
      have budget₁ := (length_le_noted _ _).trans (total ▸ budget)
      obtain ⟨code₁, ledger₁, h₁⟩ := first.mpr ⟨starts, wf, bodies, budget₁⟩
      obtain ⟨code₂, ledger₂, h₂⟩ := (later h₁).mpr ⟨starts', wf', bodies', budget⟩
      exact ⟨_, _, bind_eq_ok_iff.mpr ⟨_, h₁, bind_eq_ok_iff.mpr ⟨_, h₂, rfl⟩⟩⟩

/-- Unit names are accepted exactly if they are legal and no two units share one. -/
lemma checkUnitNames_eq_ok_iff {earlier : List String} {program : Program} :
    checkUnitNames earlier program = .ok () ↔
      (∀ unit ∈ program, SourceUnit.LegalName unit.name ∧ unit.name ∉ earlier) ∧
        (program.map SourceUnit.name).Nodup := by
  induction program generalizing earlier with
  | nil => exact ⟨fun _ => ⟨nofun, List.nodup_nil⟩, fun _ => rfl⟩
  | cons unit rest ih =>
    rw [checkUnitNames, List.forall_mem_cons, List.map_cons, List.nodup_cons]
    cases hf : SourceUnit.nameFault? unit.name with
    | some fault =>
      refine ⟨nofun, fun h => ?_⟩
      rw [SourceUnit.nameFault?_eq_none_iff.mpr h.1.1.1] at hf
      exact nomatch hf
    | none =>
      have legal := SourceUnit.nameFault?_eq_none_iff.mp hf
      by_cases hm : unit.name ∈ earlier
      · simp [hm]
      · rw [if_neg (by simpa using hm), ih]
        simp only [List.mem_cons, not_or]
        constructor
        · rintro ⟨h, distinct⟩
          refine ⟨⟨⟨legal, hm⟩, fun other ho => ⟨(h other ho).1, (h other ho).2.2⟩⟩, ?_, distinct⟩
          intro hn
          obtain ⟨other, ho, e⟩ := List.mem_map.mp hn
          exact (h other ho).2.1 e
        · rintro ⟨⟨-, h⟩, hn, distinct⟩
          refine ⟨fun other ho => ⟨(h other ho).1, fun e => ?_, (h other ho).2⟩, distinct⟩
          exact hn (List.mem_map.mpr ⟨other, ho, e⟩)

/-- A function can be defined exactly if its name is new. -/
lemma define_eq_ok_iff {name : String} :
    ledger.define name unit = .ok ledger' ↔
      name ∉ ledger.functions.map Prod.fst ∧
        ledger' = { ledger with functions := ledger.functions ++ [(name, unit)] } := by
  rw [Ledger.define, ← lookup_eq_none_iff_notMem]
  cases ledger.functions.lookup name with
  | some first => simp
  | none => simp [eq_comm]

/-- The functions of a unit can be defined exactly if their names are legal and new, and then they
stand behind those defined before. -/
lemma defineFunctions_eq_ok_iff :
    defineFunctions unit commands position ledger = .ok ledger' ↔
      (∀ name ∈ commands.filterMap Command.defines?,
        Name.Legal name ∧ name ∉ ledger.functions.map Prod.fst) ∧
      (commands.filterMap Command.defines?).Nodup ∧
      ledger' = { ledger with functions := ledger.functions ++
        (commands.filterMap Command.defines?).map fun name => (name, unit) } := by
  induction commands generalizing position ledger with
  | nil => simp [defineFunctions, eq_comm]
  | cons command rest ih =>
    cases hf : command.isFunction with
    | false =>
      cases command with
      | function name locals => exact nomatch hf
      | _ => exact ih
    | true =>
      cases command with
      | function name locals =>
        have names : (Command.function name locals :: rest).filterMap Command.defines? =
            name :: rest.filterMap Command.defines? := rfl
        simp only [names, List.forall_mem_cons, List.nodup_cons, List.map_cons]
        constructor
        · intro h
          obtain ⟨_, checked, h⟩ := bind_eq_ok_iff.mp h
          obtain ⟨ledger₁, defined, h⟩ := bind_eq_ok_iff.mp h
          obtain ⟨new, rfl⟩ := define_eq_ok_iff.mp defined
          obtain ⟨legal, distinct, rfl⟩ := ih.mp h
          simp only [List.map_append, List.mem_append, not_or] at legal
          refine ⟨⟨⟨Site.checkName_eq_ok_iff.mp checked, new⟩, fun other ho =>
            ⟨(legal other ho).1, (legal other ho).2.1⟩⟩, ⟨fun hn => ?_, distinct⟩, by simp⟩
          exact (legal name hn).2.2 (by simp)
        · rintro ⟨⟨⟨legal, new⟩, later⟩, ⟨hn, distinct⟩, rfl⟩
          refine bind_eq_ok_iff.mpr ⟨(), Site.checkName_eq_ok_iff.mpr legal, ?_⟩
          refine bind_eq_ok_iff.mpr ⟨_, define_eq_ok_iff.mpr ⟨new, rfl⟩, ?_⟩
          refine ih.mpr ⟨fun other ho => ⟨(later other ho).1, ?_⟩, distinct, by simp⟩
          simp only [List.map_append, List.mem_append, not_or]
          refine ⟨(later other ho).2, fun e => hn ?_⟩
          have same : other = name := by simpa using e
          exact same ▸ ho
      | _ => exact nomatch hf

/-- The functions of a program can be defined exactly if their names are legal and new. -/
lemma defineAll_eq_ok_iff {program : Program} :
    defineAll program ledger = .ok ledger' ↔
      (∀ name ∈ program.functionNames, Name.Legal name ∧ name ∉ ledger.functions.map Prod.fst) ∧
      program.functionNames.Nodup ∧
      ledger' = { ledger with functions := ledger.functions ++ program.definitions } := by
  induction program generalizing ledger with
  | nil => simp [defineAll, functionNames, definitions, eq_comm]
  | cons unit rest ih =>
    have definitions_cons : definitions (unit :: rest) =
        ((unit.commands.filterMap Command.defines?).map fun name => (name, unit.name)) ++
          definitions rest := rfl
    have functionNames_cons : functionNames (unit :: rest) =
        unit.commands.filterMap Command.defines? ++ functionNames rest := by
      simp [functionNames, definitions_cons, Function.comp_def]
    have keys : (ledger.functions ++ (unit.commands.filterMap Command.defines?).map fun name =>
        (name, unit.name)).map Prod.fst =
          ledger.functions.map Prod.fst ++ unit.commands.filterMap Command.defines? := by
      simp [Function.comp_def]
    rw [functionNames_cons, List.nodup_append, List.forall_mem_append, definitions_cons]
    constructor
    · intro h
      obtain ⟨ledger₁, h₁, h⟩ := bind_eq_ok_iff.mp h
      obtain ⟨legal, distinct, rfl⟩ := defineFunctions_eq_ok_iff.mp h₁
      obtain ⟨legal', distinct', rfl⟩ := ih.mp h
      simp only [keys, List.mem_append, not_or] at legal'
      refine ⟨⟨legal, fun name hn => ⟨(legal' name hn).1, (legal' name hn).2.1⟩⟩,
        ⟨distinct, distinct', ?_⟩, by simp⟩
      rintro name hn _ hn' rfl
      exact (legal' name hn').2.2 hn
    · rintro ⟨⟨legal, legal'⟩, ⟨distinct, distinct', disjoint⟩, rfl⟩
      refine bind_eq_ok_iff.mpr ⟨_, defineFunctions_eq_ok_iff.mpr ⟨legal, distinct, rfl⟩, ?_⟩
      refine ih.mpr ⟨fun name hn => ⟨(legal' name hn).1, ?_⟩, distinct', by simp⟩
      rw [keys, List.mem_append, not_or]
      exact ⟨(legal' name hn).2, fun hn' => disjoint name hn' name hn rfl⟩

/-- The ledger with which the commands of a program are lowered. -/
lemma defineAll_empty_eq_ok_iff {program : Program} :
    defineAll program .empty = .ok ledger' ↔
      (∀ name ∈ program.functionNames, Name.Legal name) ∧ program.functionNames.Nodup ∧
        ledger' = .opening program.definitions 0 := by
  rw [defineAll_eq_ok_iff]
  simp [Ledger.empty, Ledger.opening]

/-- Settings are accepted exactly if the stack base fits an instruction and the entry point has a
legal name. -/
lemma check_settings_eq_ok_iff {settings : Settings} :
    settings.check = .ok () ↔
      settings.stackBase ≤ maxImmediate ∧ Name.Legal settings.entryPoint := by
  rw [Settings.check]
  by_cases h : maxImmediate < settings.stackBase
  · simp only [if_pos h, reduceCtorEq, false_iff, not_and]
    exact fun hle => absurd hle (UInt16.not_le.mpr h)
  · rw [if_neg h, mapError_eq_ok_iff, Name.check_eq_ok_iff]
    exact (and_iff_right (UInt16.not_lt.mp h)).symm

/-- A compilation passes the checks in front of the commands and lowers the units with the functions
of the program. -/
lemma compile_eq_ok_iff {settings : Settings} {program : Program} {compiled : Compiled} :
    compile settings program = .ok compiled ↔
      settings.check = .ok () ∧ program.checkUnitNames [] = .ok () ∧
        ∃ ledger entry body ledger',
          program.defineAll .empty = .ok ledger ∧
          ledger.entry? settings.entryPoint = some entry ∧
          lowerUnits settings.inlineLocals program ledger = .ok (body, ledger') ∧
          compiled = ⟨Bootstrap.code settings.stackBase entry ++ Routine.allCode ++ body,
            { ledger'.finalStats with instructions :=
              (Bootstrap.code settings.stackBase entry ++ Routine.allCode ++ body).size }⟩ := by
  constructor
  · intro h
    obtain ⟨_, h₁, h⟩ := bind_eq_ok_iff.mp h
    obtain ⟨_, h₂, h⟩ := bind_eq_ok_iff.mp h
    obtain ⟨ledger, h₃, h⟩ := bind_eq_ok_iff.mp h
    cases h₄ : ledger.entry? settings.entryPoint with
    | none =>
      rw [h₄] at h
      exact nomatch h
    | some entry =>
      rw [h₄] at h
      obtain ⟨⟨body, ledger'⟩, h₅, h⟩ := bind_eq_ok_iff.mp h
      cases h
      exact ⟨h₁, h₂, ledger, entry, body, ledger', h₃, h₄, h₅, rfl⟩
  · rintro ⟨h₁, h₂, ledger, entry, body, ledger', h₃, h₄, h₅, rfl⟩
    refine bind_eq_ok_iff.mpr ⟨(), h₁, bind_eq_ok_iff.mpr ⟨(), h₂, ?_⟩⟩
    refine bind_eq_ok_iff.mpr ⟨ledger, h₃, ?_⟩
    rw [h₄]
    exact bind_eq_ok_iff.mpr ⟨(body, ledger'), h₅, rfl⟩

variable {settings : Settings} {program : Program} {compiled : Compiled}

/-- The units of a program are lowered from its functions exactly if the conditions on its commands
hold. -/
lemma lowerUnits_opening_isOk_iff (inlineMax : UInt16) :
    (∃ code ledger', lowerUnits inlineMax program (.opening program.definitions 0) =
      .ok (code, ledger')) ↔
      (∀ unit ∈ program, ∀ command ∈ unit.commands.head?, command.isFunction = true) ∧
      (∀ unit ∈ program, ∀ command ∈ unit.commands, command.WellFormed program.functionNames) ∧
      (∀ unit ∈ program, ∀ body ∈ Command.bodies unit.commands,
        (Command.labelUse body).Consistent) ∧
      program.statics.toFinset.card ≤ staticLimit := by
  rw [← length_noted_nil]
  exact lowerUnits_isOk_iff rfl (Nat.zero_le _)

/-- A program that is compiled is acceptable. -/
lemma Accepted.of_compile (h : compile settings program = .ok compiled) :
    program.Accepted settings := by
  obtain ⟨h₁, h₂, ledger, entry, body, ledger', h₃, h₄, h₅, -⟩ := compile_eq_ok_iff.mp h
  obtain ⟨stackBase, entryName⟩ := check_settings_eq_ok_iff.mp h₁
  obtain ⟨unitNames, unitsDistinct⟩ := checkUnitNames_eq_ok_iff.mp h₂
  obtain ⟨functionsLegal, functionsDistinct, rfl⟩ := defineAll_empty_eq_ok_iff.mp h₃
  obtain ⟨starts, wellFormed, labels, staticBudget⟩ :=
    (lowerUnits_opening_isOk_iff _).mp ⟨body, ledger', h₅⟩
  have entryDefined : settings.entryPoint ∈ program.functionNames := by
    by_contra undefined
    rw [Ledger.entry?_eq_none_iff.mpr undefined] at h₄
    exact nomatch h₄
  exact {
    stackBase, entryName, unitsDistinct, functionsLegal, functionsDistinct, entryDefined, starts,
    wellFormed, labels, staticBudget
    unitNames := fun unit hu => (unitNames unit hu).1 }

/-- The function that an acceptable program starts with lies in one of its units. -/
lemma Accepted.exists_entry (accepted : program.Accepted settings) :
    ∃ unit, program.definitions.lookup settings.entryPoint = some unit := by
  cases h : program.definitions.lookup settings.entryPoint with
  | none => exact absurd accepted.entryDefined (lookup_eq_none_iff_notMem.mp h)
  | some unit => exact ⟨unit, rfl⟩

/-- An acceptable program is compiled. -/
lemma Accepted.exists_compiled (accepted : program.Accepted settings) :
    ∃ compiled, compile settings program = .ok compiled := by
  obtain ⟨unit, hu⟩ := accepted.exists_entry
  obtain ⟨body, ledger', h₅⟩ := (lowerUnits_opening_isOk_iff settings.inlineLocals).mpr
    ⟨accepted.starts, accepted.wellFormed, accepted.labels, accepted.staticBudget⟩
  refine ⟨_, compile_eq_ok_iff.mpr
    ⟨?_, ?_, _, _, body, ledger', ?_, Ledger.entry?_of_lookup hu, h₅, rfl⟩⟩
  · exact check_settings_eq_ok_iff.mpr ⟨accepted.stackBase, accepted.entryName⟩
  · exact checkUnitNames_eq_ok_iff.mpr
      ⟨fun unit hu => ⟨accepted.unitNames unit hu, nofun⟩, accepted.unitsDistinct⟩
  · exact defineAll_empty_eq_ok_iff.mpr
      ⟨accepted.functionsLegal, accepted.functionsDistinct, rfl⟩

/-- The code of a compiled program is the one it stands for. -/
lemma compile_code (h : compile settings program = .ok compiled) :
    compiled.code = program.assembly settings := by
  obtain ⟨-, -, ledger, entry, body, ledger', h₃, h₄, h₅, rfl⟩ := compile_eq_ok_iff.mp h
  obtain ⟨-, -, rfl⟩ := defineAll_empty_eq_ok_iff.mp h₃
  obtain ⟨rfl, -⟩ := lowerUnits_ok rfl h₅
  have entry_eq : program.entryLabel settings = entry := by
    obtain ⟨unit, hu⟩ := (Accepted.of_compile h).exists_entry
    rw [entryLabel, hu]
    exact Option.some.inj ((Ledger.entry?_of_lookup hu).symm.trans h₄)
  rw [assembly, preamble, entry_eq]
  rfl

/-- A program is compiled exactly if it is acceptable. -/
theorem compile_isOk_iff_accepted (settings : Settings) (program : Program) :
    (∃ compiled, compile settings program = .ok compiled) ↔ program.Accepted settings :=
  ⟨fun ⟨_, h⟩ => .of_compile h, fun accepted => accepted.exists_compiled⟩

end Program

end HackVM
