import Mathlib
import HackVM.Proofs.Counts

/-!
# The order of units

No condition on a program speaks of the order of its units, and nothing that is counted depends on it:
commands and functions are counted one by one, and the order in which this happens can be exchanged. Only
the name of the largest function can change, where several functions are largest.
-/

namespace HackVM

/-- A command stays well formed when more functions are defined. -/
lemma Command.WellFormed.mono {defined defined' : List String} (more : defined ⊆ defined')
    {command : Command} (h : command.WellFormed defined) : command.WellFormed defined' := by
  cases command with
  | call name arguments => exact ⟨h.1, more h.2⟩
  | _ => exact h

namespace Tally

/-- It does not matter which of two kinds is counted first. -/
lemma bump_comm (kind other : String) (tally : Tally) :
    (tally.bump kind).bump other = (tally.bump other).bump kind := by
  -- Both kinds go to their places in the order; where one is in front of the list, the other is behind it.
  induction tally with
  | nil => grind [bump]
  | cons entry rest ih => grind [bump]

/-- It does not matter in which order kinds are counted. -/
lemma bumpAll_perm {kinds kinds' : List String} (h : kinds.Perm kinds') (tally : Tally) :
    bumpAll kinds tally = bumpAll kinds' tally :=
  h.foldl_eq' (fun kind _ other _ tally => bump_comm kind other tally) tally

end Tally

namespace Statistics

/-- The largest size is the maximum of the sizes. -/
lemma snd_largest (best : String × Nat) (sizes : List (String × Nat)) :
    (largest best sizes).2 = (sizes.map Prod.snd).foldl max best.2 := by
  induction sizes generalizing best with
  | nil => rfl
  | cons next rest ih =>
    have step : (larger best next).2 = max best.2 next.2 := by
      rw [larger, max_def]
      split_ifs <;> omega
    rw [List.map_cons, List.foldl_cons, ← step]
    exact ih _

/-- The largest size does not depend on the order of the sizes. -/
lemma snd_largest_perm {sizes sizes' : List (String × Nat)} (h : sizes.Perm sizes')
    (best : String × Nat) : (largest best sizes).2 = (largest best sizes').2 := by
  rw [snd_largest, snd_largest]
  exact (h.map _).foldl_eq _

end Statistics

namespace Program

variable {settings : Settings} {program program' : Program}

section Perm

variable (h : program.Perm program')
include h

/-- The same units have the same functions. -/
lemma perm_functionNames : program.functionNames.Perm program'.functionNames :=
  (h.flatMap_right _).map _

/-- The same units have the same commands. -/
lemma perm_commands : program.commands.Perm program'.commands :=
  h.flatMap_right _

/-- The same units have functions of the same sizes. -/
lemma perm_functionSizes (inlineMax : UInt16) :
    (program.functionSizes inlineMax).Perm (program'.functionSizes inlineMax) :=
  h.flatMap_right _

/-- The same units have the same number of static variables. -/
lemma card_statics_perm : program.statics.toFinset.card = program'.statics.toFinset.card := by
  have perm : program.statics.Perm program'.statics := h.flatMap_right _
  rw [List.toFinset_eq_of_perm _ _ perm]

/-- Acceptability does not depend on the order of the units. -/
lemma Accepted.perm (accepted : program.Accepted settings) : program'.Accepted settings where
  stackBase := accepted.stackBase
  entryName := accepted.entryName
  unitNames := fun unit hu => accepted.unitNames unit (h.mem_iff.mpr hu)
  unitsDistinct := (h.map _).nodup_iff.mp accepted.unitsDistinct
  functionsLegal := fun name hn => accepted.functionsLegal name ((perm_functionNames h).mem_iff.mpr hn)
  functionsDistinct := (perm_functionNames h).nodup_iff.mp accepted.functionsDistinct
  entryDefined := (perm_functionNames h).mem_iff.mp accepted.entryDefined
  starts := fun unit hu => accepted.starts unit (h.mem_iff.mpr hu)
  wellFormed := fun unit hu command hc =>
    (accepted.wellFormed unit (h.mem_iff.mpr hu) command hc).mono (perm_functionNames h).subset
  labels := fun unit hu => accepted.labels unit (h.mem_iff.mpr hu)
  staticBudget := (card_statics_perm h).symm.trans_le accepted.staticBudget

/-- Nothing that is counted depends on the order of the units, apart from the name of the largest
function. -/
lemma statistics_perm : program'.statistics settings =
    { program.statistics settings with
      largestName := (program'.statistics settings).largestName } := by
  have sizes := perm_functionSizes h settings.inlineLocals
  have commands := perm_commands h
  have total := (sizes.map Prod.snd).sum_eq
  simp only [statistics, Statistics.mk.injEq, and_true]
  refine ⟨sizes.length_eq.symm, commands.length_eq.symm, ?_, ?_, ?_, ?_, ?_, ?_⟩
  · exact (Tally.bumpAll_perm (commands.map _) []).symm
  · -- The entry function may stand in another place, but jumping there takes as many instructions.
    rw [← total]
    rfl
  · exact (commands.map _).sum_eq.symm
  · exact (commands.map _).sum_eq.symm
  · exact (card_statics_perm h).symm
  · exact (Statistics.snd_largest_perm sizes _).symm

end Perm

/-- The order of the units decides neither whether a program is accepted nor what is counted, apart from
which function is named among several that are largest. -/
theorem compiled_stats_perm (h : program.Perm program') :
    ((∃ compiled, compile settings program = .ok compiled) ↔
      ∃ compiled', compile settings program' = .ok compiled') ∧
    ∀ compiled compiled', compile settings program = .ok compiled →
      compile settings program' = .ok compiled' →
      compiled'.stats = { compiled.stats with largestName := compiled'.stats.largestName } := by
  refine ⟨⟨?_, ?_⟩, ?_⟩
  · rintro ⟨compiled, accepts⟩
    exact ((Accepted.of_compile accepts).perm h).exists_compiled
  · rintro ⟨compiled', accepts⟩
    exact ((Accepted.of_compile accepts).perm h.symm).exists_compiled
  · intro compiled compiled' accepts accepts'
    rw [compile_stats accepts, compile_stats accepts']
    exact statistics_perm h

/-- Two units whose functions have the same size. -/
def rivals : Program :=
  [⟨"Left", [.function "Left.run" 1, .push .statics 0, .call "Right.run" 1, .ret]⟩,
    ⟨"Right", [.function "Right.run" 1, .push .statics 0, .call "Left.run" 1, .ret]⟩]

/-- With the units exchanged all counts of the rivals are the same, but the other function is named. -/
theorem rivals_stats_perm :
    ∃ compiled compiled', compile ⟨"Left.run", 256, 2⟩ rivals = .ok compiled ∧
      compile ⟨"Left.run", 256, 2⟩ rivals.reverse = .ok compiled' ∧
      compiled.stats.largestName = "Left.run" ∧
      compiled'.stats = { compiled.stats with largestName := "Right.run" } := by
  have counted : ((compile ⟨"Left.run", 256, 2⟩ rivals).toOption.map fun compiled =>
      compiled.stats.largestName) = some "Left.run" := by
    decide +kernel
  have counted' : ((compile ⟨"Left.run", 256, 2⟩ rivals.reverse).toOption.map fun compiled =>
      compiled.stats.largestName) = some "Right.run" := by
    decide +kernel
  obtain ⟨compiled, h, name⟩ := Option.map_eq_some_iff.mp counted
  obtain ⟨compiled', h', name'⟩ := Option.map_eq_some_iff.mp counted'
  rw [toOption_eq_some_iff] at h h'
  have same := (compiled_stats_perm rivals.reverse_perm.symm).2 compiled compiled' h h'
  rw [name'] at same
  exact ⟨compiled, compiled', h, h', name, same⟩

end Program

end HackVM
