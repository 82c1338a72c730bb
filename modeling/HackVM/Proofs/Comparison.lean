import Mathlib
import HackVM.Proofs.Execution
import HackVM.Proofs.Positions

/-!
# Comparisons

The shared routines that compare the two topmost values decide the comparison of signed numbers for all
words. Order is decided by the signs of the operands if they differ; otherwise their difference does not
leave the range of a word, so its sign decides.
-/

namespace HackVM

namespace Comparison

/-- The comparison of two words as signed numbers. -/
def Holds (comparison : Comparison) (x y : Word) : Prop :=
  match comparison with
  | .eq => x = y
  | .gt => y.toInt < x.toInt
  | .lt => x.toInt < y.toInt

instance (comparison : Comparison) (x y : Word) : Decidable (comparison.Holds x y) :=
  match comparison with
  | .eq => inferInstanceAs (Decidable (x = y))
  | .gt => inferInstanceAs (Decidable (y.toInt < x.toInt))
  | .lt => inferInstanceAs (Decidable (x.toInt < y.toInt))

/-- The word that answers a comparison: all ones if it holds, else zero. -/
def verdict (comparison : Comparison) (x y : Word) : Word :=
  if comparison.Holds x y then -1 else 0

lemma verdict_of_holds {comparison : Comparison} {x y : Word} (h : comparison.Holds x y) :
    comparison.verdict x y = -1 :=
  if_pos h

lemma verdict_of_not_holds {comparison : Comparison} {x y : Word} (h : ¬ comparison.Holds x y) :
    comparison.verdict x y = 0 :=
  if_neg h

end Comparison

/-- The difference of words of the same sign does not leave the range of a word. -/
lemma toInt_sub_of_sign {x y : Word} (h : x.toInt < 0 ↔ y.toInt < 0) :
    (x - y).toInt = x.toInt - y.toInt := by
  have hx := BitVec.two_mul_toInt_lt (x := x)
  have hx' := BitVec.le_two_mul_toInt (x := x)
  have hy := BitVec.two_mul_toInt_lt (x := y)
  have hy' := BitVec.le_two_mul_toInt (x := y)
  rw [BitVec.toInt_sub]
  apply Int.bmod_eq_of_le_mul_two <;> omega

namespace Jump

variable {value : Word}

lemma taken_ifNegative_iff : Jump.ifNegative.taken value = true ↔ value.toInt < 0 := by
  simp [Jump.taken, Jump.ifNegative]

lemma taken_ifPositive_iff : Jump.ifPositive.taken value = true ↔ 0 < value.toInt := by
  simp [Jump.taken, Jump.ifPositive]

lemma taken_ifNonnegative_iff : Jump.ifNonnegative.taken value = true ↔ 0 ≤ value.toInt := by
  simp only [Jump.taken, Jump.ifNonnegative, Bool.true_and, Bool.false_and, Bool.false_or,
    Bool.or_eq_true, beq_iff_eq, decide_eq_true_eq]
  omega

lemma taken_ifNonzero_iff : Jump.ifNonzero.taken value = true ↔ value ≠ 0 := by
  have zero : value.toInt = 0 ↔ value = 0 := BitVec.toInt_inj (y := 0#16)
  simp only [Jump.taken, Jump.ifNonzero, Bool.true_and, Bool.false_and, Bool.or_false,
    Bool.or_eq_true, decide_eq_true_eq, ne_eq, ← zero]
  omega

end Jump

namespace Comparison

variable {comparison : Comparison} {x y : Word}

/-- A negative lower operand is less than an upper one that is not negative. -/
lemma holds_iff_of_lower (order : comparison ≠ .eq) (hx : x.toInt < 0) (hy : ¬ y.toInt < 0) :
    comparison.Holds x y ↔ ¬ comparison = .gt := by
  cases comparison with
  | eq => exact absurd rfl order
  | gt => simp only [Holds, not_true_eq_false, iff_false]; omega
  | lt => simp only [Holds, reduceCtorEq, not_false_eq_true, iff_true]; omega

/-- A lower operand that is not negative is greater than a negative upper one. -/
lemma holds_iff_of_upper (order : comparison ≠ .eq) (hx : ¬ x.toInt < 0) (hy : y.toInt < 0) :
    comparison.Holds x y ↔ comparison = .gt := by
  cases comparison with
  | eq => exact absurd rfl order
  | gt => simp only [Holds, iff_true]; omega
  | lt => simp only [Holds, reduceCtorEq, iff_false]; omega

/-- Operands of the same sign are compared by the sign of their difference. -/
lemma holds_iff_of_sign (order : comparison ≠ .eq) (h : x.toInt < 0 ↔ y.toInt < 0) :
    comparison.Holds x y ↔ comparison.trueWhen.taken (x - y) = true := by
  have difference := toInt_sub_of_sign h
  cases comparison with
  | eq => exact absurd rfl order
  | gt =>
    rw [trueWhen, Jump.taken_ifPositive_iff, difference, Holds]
    omega
  | lt =>
    rw [trueWhen, Jump.taken_ifNegative_iff, difference, Holds]
    omega

end Comparison

/-- Reads the lower operand of a comparison and branches on it. -/
def Code.branchOnLower (label : String) (condition : Jump) : Code :=
  addressTop ++ ([assign .toD (.input .m)] ++ branch label condition)

/-- Puts the answer of a comparison in place of the lower operand and returns. -/
def Code.answer (comp : Comp) : Code :=
  addressTop ++ ([assign .toM comp] ++ gotoVia .compareReturn)

open Code in
/-- The pieces of an order routine, each with its own label. -/
lemma Routine.orderCode_eq (comparison : Comparison) :
    orderCode comparison =
      (.label (entry (.compare comparison)) :: (storeD .compareReturn ++ (popD ++
        branch (inner (.compare comparison) "YNEG") .ifNegative))) ++
      (branchOnLower (if comparison = .gt then inner (.compare comparison) "FALSE"
        else inner (.compare comparison) "TRUE") .ifNegative ++
      (goto (inner (.compare comparison) "SUB") ++
      ((.label (inner (.compare comparison) "YNEG") ::
        branchOnLower (if comparison = .gt then inner (.compare comparison) "TRUE"
          else inner (.compare comparison) "FALSE") .ifNonnegative) ++
      ((.label (inner (.compare comparison) "SUB") ::
        ([Code.address .sp, assign .toA (.input .m), assign .toD (.input .m),
          assign .toA (.dec .a), assign .toD (.subFrom .m)] ++
          branch (inner (.compare comparison) "TRUE") comparison.trueWhen)) ++
      ((.label (inner (.compare comparison) "FALSE") :: answer .zero) ++
      (.label (inner (.compare comparison) "TRUE") :: answer .negOne)))))) := by
  unfold orderCode branchOnLower answer
  dsimp only
  simp only [List.append_assoc, List.cons_append, List.nil_append]

attribute [local irreducible] Routine.orderCode

namespace Image

open Code

variable {image : Image} {ram : Memory} {a d r x y : Word} {pc s target : Nat} {label : String}

attribute [local simp] exec_nil exec_address exec_number exec_assign Comp.result Comp.operand
  Comp.source? Comp.value Comp.readsMemory Dest.toA Dest.toD Dest.toM Dest.toAM Dest.toMD
  toNat_word_cell zero_lt_ramSize word_add_one word_succ_sub_one

/-- The memory of a comparison routine that compares two words: the return address is noted, the stack
pointer names the upper operand and the operands are still there. -/
structure Compares (ram : Memory) (s : Nat) (r x y : Word) : Prop where
  sp : peek ram 0 = word (s + 1)
  note : peek ram 15 = r
  lower : peek ram s = x
  upper : peek ram (s + 1) = y

/-- A comparison routine starts by noting its return address and popping the upper operand. -/
lemma exec_openCompare {rest : Code} (sp : peek ram 0 = word (s + 2)) (low : 16 ≤ s)
    (high : s + 2 ≤ ramSize) :
    image.exec (storeD .compareReturn ++ (popD ++ rest)) ⟨ram, a, r, pc⟩ =
      image.exec rest ⟨poke (poke ram 15 r) 0 (word (s + 1)), word (s + 1), peek ram (s + 1),
        pc + 5⟩ := by
  have noted : peek (poke ram 15 r) 0 = word (s + 1 + 1) := by simpa using sp
  rw [exec_append (exec_storeD (by decide)), Register.address_compareReturn,
    exec_append (exec_popD noted (Nat.succ_pos s) (by omega)), peek_poke_of_ne (by omega)]

/-- Behind its start a comparison routine compares the operands. -/
lemma compares_open (ram : Memory) (r : Word) (low : 16 ≤ s) :
    Compares (poke (poke ram 15 r) 0 (word (s + 1))) s r (peek ram s) (peek ram (s + 1)) := by
  have cell : 15 < ramSize := by decide
  constructor <;> simp (disch := omega)

/-- A comparison routine ends by putting its answer in place of the lower operand. -/
lemma exec_answer {comp : Comp} (pure : comp.source? = none) (compares : Compares ram s r x y)
    (low : 16 ≤ s) (high : s < ramSize) :
    image.exec (answer comp) ⟨ram, a, d, pc⟩ =
      .ok ⟨poke ram s (comp.value d 0), r, d, r.toNat⟩ := by
  have store : image.exec [assign .toM comp] ⟨ram, word s, d, pc + 2⟩ =
      .ok ⟨poke ram s (comp.value d 0), word s, d, pc + 3⟩ := by
    rw [exec_assign fun _ => high]
    simp [pure, -Comp.value, -Comp.source?]
  rw [answer, exec_append (exec_addressTop compares.sp), exec_append store,
    exec_gotoVia (by decide), Register.address_compareReturn, peek_poke_of_ne (by omega), compares.note]

/-- The routine for equality answers by the difference of the operands. -/
lemma Holds.reaches_equal (holds : image.Holds pc Routine.equalCode)
    (sp : peek ram 0 = word (s + 2)) (low : 16 ≤ s) (high : s + 2 ≤ ramSize) :
    ∃ a' d', image.Reaches ⟨ram, a, r, pc⟩
      ⟨poke (poke (poke ram 15 r) 0 (word (s + 1))) s
        (Comparison.verdict .eq (peek ram s) (peek ram (s + 1))), a', d', r.toNat⟩ := by
  have split : Routine.equalCode =
      (.label (Routine.entry (.compare .eq)) :: (storeD .compareReturn ++ (popD ++
        (assign .toA (.dec .a) :: ([assign .toD (.subFrom .m), assign .toM .zero] ++
          branch (Routine.inner (.compare .eq) "END") .ifNonzero))))) ++
      ((addressTop ++ [assign .toM .negOne]) ++
        (.label (Routine.inner (.compare .eq) "END") :: gotoVia .compareReturn)) := rfl
  rw [split, holds_append, holds_append] at holds
  obtain ⟨start, setTrue, finish⟩ := holds
  have compares := compares_open ram r low
  set opened := poke (poke ram 15 r) 0 (word (s + 1)) with opened_eq
  set x := peek ram s
  set y := peek ram (s + 1)
  have hs : s < ramSize := by omega
  have decided : image.Reaches ⟨ram, a, r, pc⟩ ⟨poke opened s 0, word (pc + 13), x - y,
      if Jump.ifNonzero.taken (x - y) then pc + 13 else pc + 10⟩ := by
    refine Holds.reaches start rfl ?_
    have subtract : image.exec [assign .toD (.subFrom .m), assign .toM .zero]
        ⟨opened, word s, y, pc + 6⟩ = .ok ⟨poke opened s 0, word s, x - y, pc + 8⟩ := by
      simp [hs, compares.lower]
    rw [exec_cons rfl, exec_openCompare sp low high, exec_stepDown, exec_append subtract,
      exec_branch finish.1]
    rfl
  have leave : ∀ ram : Memory, ∀ a d, peek ram 15 = r →
      image.Reaches ⟨ram, a, d, pc + 13⟩ ⟨ram, r, d, r.toNat⟩ := by
    intro ram a d note
    refine Holds.reaches finish rfl ?_
    rw [exec_cons rfl, exec_gotoVia (by decide), Register.address_compareReturn, note]
  -- The answer is already "no" in memory, and is overwritten if there is no difference.
  by_cases equal : Comparison.Holds .eq x y
  · have fall : ¬ Jump.ifNonzero.taken (x - y) = true := by
      have equal : x = y := equal
      rw [Jump.taken_ifNonzero_iff, equal, BitVec.sub_self]
      exact fun ne => ne rfl
    rw [if_neg fall] at decided
    have sp' : peek (poke opened s 0) 0 = word (s + 1) := by
      rw [peek_poke_of_ne (by omega), compares.sp]
    have set : image.Reaches ⟨poke opened s 0, word (pc + 13), x - y, pc + 10⟩
        ⟨poke opened s (-1), word s, x - y, pc + 13⟩ := by
      refine Holds.reaches setTrue rfl ?_
      rw [exec_append (exec_addressTop sp'), exec_assign fun _ => hs]
      simp [poke_poke_self]
    have note : peek (poke opened s (-1)) 15 = r := by
      rw [peek_poke_of_ne (by omega), compares.note]
    rw [Comparison.verdict_of_holds equal]
    exact ⟨_, _, (decided.trans set).trans (leave _ _ _ note)⟩
  · have taken : Jump.ifNonzero.taken (x - y) = true := by
      rw [Jump.taken_ifNonzero_iff]
      exact fun zero => equal (sub_eq_zero.mp zero)
    rw [if_pos taken] at decided
    have note : peek (poke opened s 0) 15 = r := by
      rw [peek_poke_of_ne (by omega), compares.note]
    rw [Comparison.verdict_of_not_holds equal]
    exact ⟨_, _, decided.trans (leave _ _ _ note)⟩

/-- A branch on the lower operand leaves the comparison as it is. -/
lemma exec_branchOnLower {condition : Jump} (placed : image.Places label target)
    (compares : Compares ram s r x y) (hs : s < ramSize) :
    image.exec (branchOnLower label condition) ⟨ram, a, d, pc⟩ =
      .ok ⟨ram, word target, x, if condition.taken x then target else pc + 5⟩ := by
  have read : image.exec [assign .toD (.input .m)] ⟨ram, word s, d, pc + 2⟩ =
      .ok ⟨ram, word s, x, pc + 3⟩ := by
    simp [hs, compares.lower]
  rw [branchOnLower, exec_append (exec_addressTop compares.sp), exec_append read,
    exec_branch placed]

/-- The difference of the operands is taken from memory, where both still are. -/
lemma exec_difference (compares : Compares ram s r x y) (hs : s + 1 < ramSize) :
    image.exec [Code.address .sp, assign .toA (.input .m), assign .toD (.input .m),
      assign .toA (.dec .a), assign .toD (.subFrom .m)] ⟨ram, a, d, pc⟩ =
      .ok ⟨ram, word s, x - y, pc + 5⟩ := by
  have cell : s < ramSize := Nat.lt_of_succ_lt hs
  simp [compares.sp, hs, cell, compares.lower, compares.upper]

/-- Once a routine decided, it goes on to the answer that it decided for. -/
lemma Holds.reaches_settled {comparison : Comparison} {yes no : String} {yesPc noPc : Nat}
    (answerTrue : image.Holds yesPc (.label yes :: answer .negOne))
    (answerFalse : image.Holds noPc (.label no :: answer .zero)) (compares : Compares ram s r x y)
    (low : 16 ≤ s) (high : s < ramSize) {decided : Prop} [Decidable decided]
    (agrees : comparison.Holds x y ↔ decided) :
    image.Reaches ⟨ram, a, d, if decided then yesPc else noPc⟩
      ⟨poke ram s (comparison.verdict x y), r, d, r.toNat⟩ := by
  by_cases h : decided
  · rw [if_pos h, Comparison.verdict_of_holds (agrees.mpr h)]
    refine Holds.reaches answerTrue rfl ?_
    rw [exec_cons rfl, exec_answer rfl compares low high]
    rfl
  · rw [if_neg h, Comparison.verdict_of_not_holds (mt agrees.mp h)]
    refine Holds.reaches answerFalse rfl ?_
    rw [exec_cons rfl, exec_answer rfl compares low high]
    rfl

/-- Operands of the same sign are compared by their difference. -/
lemma Holds.reaches_subtracted {comparison : Comparison} {yes no : String} {yesPc : Nat}
    (order : comparison ≠ .eq)
    (difference : image.Holds pc (.label label ::
      ([Code.address .sp, assign .toA (.input .m), assign .toD (.input .m), assign .toA (.dec .a),
        assign .toD (.subFrom .m)] ++ branch yes comparison.trueWhen)))
    (answerTrue : image.Holds yesPc (.label yes :: answer .negOne))
    (answerFalse : image.Holds (pc + 7) (.label no :: answer .zero))
    (compares : Compares ram s r x y) (low : 16 ≤ s) (high : s + 2 ≤ ramSize)
    (signs : x.toInt < 0 ↔ y.toInt < 0) :
    image.Reaches ⟨ram, a, d, pc⟩ ⟨poke ram s (comparison.verdict x y), r, x - y, r.toNat⟩ := by
  have branched : image.Reaches ⟨ram, a, d, pc⟩ ⟨ram, word yesPc, x - y,
      if comparison.trueWhen.taken (x - y) then yesPc else pc + 7⟩ := by
    refine Holds.reaches difference rfl ?_
    rw [exec_cons rfl, exec_append (exec_difference compares (by omega)), exec_branch answerTrue.1]
  exact branched.trans (answerTrue.reaches_settled answerFalse compares low (by omega)
    (Comparison.holds_iff_of_sign order signs))

/-- The routines for order answer by the signs of the operands or by their difference. -/
lemma Holds.reaches_ordered {comparison : Comparison} (order : comparison ≠ .eq)
    (holds : image.Holds pc (Routine.orderCode comparison))
    (sp : peek ram 0 = word (s + 2)) (low : 16 ≤ s) (high : s + 2 ≤ ramSize) :
    ∃ a' d', image.Reaches ⟨ram, a, r, pc⟩
      ⟨poke (poke (poke ram 15 r) 0 (word (s + 1))) s
        (comparison.verdict (peek ram s) (peek ram (s + 1))), a', d', r.toNat⟩ := by
  rw [Routine.orderCode_eq] at holds
  simp only [holds_append] at holds
  obtain ⟨start, lower, skip, negative, difference, answerFalse, answerTrue⟩ := holds
  have compares := compares_open ram r low
  set opened := poke (poke ram 15 r) 0 (word (s + 1))
  set x := peek ram s
  set y := peek ram (s + 1)
  have hs : s < ramSize := by omega
  have opens : image.Reaches ⟨ram, a, r, pc⟩ ⟨opened, word (pc + 14), y,
      if Jump.ifNegative.taken y then pc + 14 else pc + 7⟩ := by
    refine Holds.reaches start rfl ?_
    rw [exec_cons rfl, exec_openCompare sp low high, exec_branch negative.1]
    rfl
  have settled : ∀ (a d : Word) (decided : Prop) [Decidable decided],
      (comparison.Holds x y ↔ decided) →
        image.Reaches ⟨opened, a, d, if decided then pc + 32 else pc + 26⟩
          ⟨poke opened s (comparison.verdict x y), r, d, r.toNat⟩ :=
    fun _ _ _ _ => answerTrue.reaches_settled answerFalse compares low hs
  have subtracted : ∀ a d : Word, (x.toInt < 0 ↔ y.toInt < 0) →
      image.Reaches ⟨opened, a, d, pc + 19⟩
        ⟨poke opened s (comparison.verdict x y), r, x - y, r.toNat⟩ :=
    fun _ _ => Holds.reaches_subtracted order difference answerTrue answerFalse compares low high
  -- The upper operand is looked at first; where the routine goes from there depends on its sign.
  by_cases hy : y.toInt < 0
  · rw [if_pos (Jump.taken_ifNegative_iff.mpr hy)] at opens
    have placed : image.Places (if comparison = .gt then Routine.inner (.compare comparison) "TRUE"
        else Routine.inner (.compare comparison) "FALSE")
        (if comparison = .gt then pc + 32 else pc + 26) := by
      split_ifs
      · exact answerTrue.1
      · exact answerFalse.1
    have looked := opens.trans (Holds.reaches negative rfl
      ((exec_cons rfl).trans (exec_branchOnLower placed compares hs)))
    by_cases hx : x.toInt < 0
    · rw [if_neg fun h => absurd (Jump.taken_ifNonnegative_iff.mp h) (by omega)] at looked
      exact ⟨_, _, looked.trans (subtracted _ _ (iff_of_true hx hy))⟩
    · rw [if_pos (Jump.taken_ifNonnegative_iff.mpr (by omega))] at looked
      exact ⟨_, _, looked.trans (settled _ _ _ (Comparison.holds_iff_of_upper order hx hy))⟩
  · rw [if_neg (mt Jump.taken_ifNegative_iff.mp hy)] at opens
    have placed : image.Places (if comparison = .gt then Routine.inner (.compare comparison) "FALSE"
        else Routine.inner (.compare comparison) "TRUE")
        (if ¬ comparison = .gt then pc + 32 else pc + 26) := by
      split_ifs
      · exact answerFalse.1
      · exact answerTrue.1
    have looked := opens.trans (Holds.reaches lower rfl (exec_branchOnLower placed compares hs))
    by_cases hx : x.toInt < 0
    · rw [if_pos (Jump.taken_ifNegative_iff.mpr hx)] at looked
      exact ⟨_, _, looked.trans (settled _ _ _ (Comparison.holds_iff_of_lower order hx hy))⟩
    · rw [if_neg (mt Jump.taken_ifNegative_iff.mp hx)] at looked
      have skipped := looked.trans (Holds.reaches skip rfl (exec_goto difference.1))
      exact ⟨_, _, skipped.trans (subtracted _ _ (iff_of_false hx hy))⟩

/-- A comparison routine replaces the two topmost values by the answer to their comparison and returns;
besides, only the scratch cell changes that holds the return address. -/
lemma Holds.reaches_compared {comparison : Comparison}
    (holds : image.Holds pc (Routine.code (.compare comparison)))
    (sp : peek ram 0 = word (s + 2)) (low : 16 ≤ s) (high : s + 2 ≤ ramSize) :
    ∃ a' d', image.Reaches ⟨ram, a, r, pc⟩
      ⟨poke (poke (poke ram 15 r) 0 (word (s + 1))) s
        (comparison.verdict (peek ram s) (peek ram (s + 1))), a', d', r.toNat⟩ := by
  cases comparison with
  | eq => exact Holds.reaches_equal holds sp low high
  | gt => exact Holds.reaches_ordered (by decide) holds sp low high
  | lt => exact Holds.reaches_ordered (by decide) holds sp low high

/-- A comparison of the two topmost values of a stack that ends at `s` brought a computer to the return
address in its data register. -/
structure Compared (image : Image) (comparison : Comparison) (computer : Computer) (s : Nat)
    (after : Computer) : Prop where
  reached : image.Reaches computer after
  pc : after.pc = computer.d.toNat
  answer : peek after.ram (s - 2) =
    comparison.verdict (peek computer.ram (s - 2)) (peek computer.ram (s - 1))
  sp : peek after.ram 0 = word (s - 1)
  note : peek after.ram 15 = computer.d
  unchanged : AgreeOff [0, 15, s - 2] after.ram computer.ram

lemma Holds.exists_compared {comparison : Comparison} {computer : Computer}
    (holds : image.Holds computer.pc (Routine.code (.compare comparison)))
    (sp : peek computer.ram 0 = word s) (low : 18 ≤ s) (high : s ≤ ramSize) :
    ∃ after, image.Compared comparison computer s after := by
  obtain ⟨ram, a, r, pc⟩ := computer
  obtain ⟨t, rfl⟩ : ∃ t, s = t + 2 := ⟨s - 2, by omega⟩
  obtain ⟨a', d', reached⟩ : ∃ a' d', image.Reaches ⟨ram, a, r, pc⟩ ⟨_, a', d', r.toNat⟩ :=
    holds.reaches_compared sp (by omega) high
  have registers : 15 < ramSize := by decide
  have cell : t < ramSize := by omega
  refine ⟨_, reached, rfl, ?_, ?_, ?_, ?_⟩
  · exact peek_poke_self cell
  · rw [peek_poke_of_ne (by omega), peek_poke_self zero_lt_ramSize]
    rfl
  · rw [peek_poke_of_ne (by omega), peek_poke_of_ne (by omega), peek_poke_self registers]
  · -- Three cells are stored to, and they are the three that are left out.
    refine AgreeOff.poke_left (AgreeOff.poke_left (AgreeOff.poke_left (.refl _ ram) ?_ _) ?_ _) ?_ _
    all_goals simp

end Image

namespace Program

variable {settings : Settings} {program : Program} {compiled : Compiled} {image : Image}

/-- The shared comparison routines of a loaded program are exact, for all words and from every state of the
computer with two values on its stack. -/
theorem compiled_comparison_exact (h : compile settings program = .ok compiled)
    (loads : Image.ofCode compiled.code = .ok image) (comparison : Comparison) :
    ∃ entry, image.labels.lookup (Routine.entry (.compare comparison)) = some entry ∧
      ∀ (computer : Computer) (s : Nat), computer.pc = entry → peek computer.ram 0 = word s →
        18 ≤ s → s ≤ ramSize → ∃ after, image.Compared comparison computer s after := by
  obtain ⟨entry, placed, code⟩ := (Loaded.of_compile h loads).exists_routine (.compare comparison)
  refine ⟨entry, placed.listed, ?_⟩
  rintro computer s rfl sp low high
  exact code.exists_compared sp low high

/-- A program that compares two numbers. -/
def umpire : Program :=
  [⟨"Main", [.function "main" 0, .push .constant 1, .push .constant 2, .operate (.compare .lt), .ret]⟩]

/-- The least number is less than the greatest one although their difference does not fit a word, on the
lowest stack that holds both. -/
theorem umpire_comparison_exact :
    ∃ compiled image entry after, compile ⟨"main", 256, 2⟩ umpire = .ok compiled ∧
      Image.ofCode compiled.code = .ok image ∧ image.labels.lookup "__LT" = some entry ∧
      let ram := poke (poke (poke Computer.initial.ram 0 (word 18)) 16 (word 32768)) 17 (word 32767)
      image.Compared .lt ⟨ram, 0, word 65535, entry⟩ 18 after ∧ peek after.ram 16 = -1 := by
  have accepted : ((compile ⟨"main", 256, 2⟩ umpire).toOption.bind fun compiled =>
      (Image.ofCode compiled.code).toOption).isSome = true := by
    decide +kernel
  obtain ⟨image, accepted⟩ := Option.isSome_iff_exists.mp accepted
  obtain ⟨compiled, h, loads⟩ := Option.bind_eq_some_iff.mp accepted
  rw [toOption_eq_some_iff] at h loads
  obtain ⟨entry, listed, compares⟩ := compiled_comparison_exact h loads .lt
  have cells : 17 < ramSize := by decide
  generalize e : poke (poke (poke Computer.initial.ram 0 (word 18)) 16 (word 32768)) 17 (word 32767) = ram
  have sp : peek ram 0 = word 18 := by simp (disch := omega) [← e]
  have x : peek ram 16 = word 32768 := by simp (disch := omega) [← e]
  have y : peek ram 17 = word 32767 := by simp (disch := omega) [← e]
  obtain ⟨after, compared⟩ :=
    compares ⟨ram, 0, word 65535, entry⟩ 18 rfl sp (by decide) (by decide)
  refine ⟨compiled, image, entry, after, h, loads, listed, compared, ?_⟩
  calc peek after.ram 16 = Comparison.verdict .lt (peek ram 16) (peek ram 17) := compared.answer
    _ = Comparison.verdict .lt (word 32768) (word 32767) := by rw [x, y]
    _ = -1 := by decide

end Program

end HackVM
