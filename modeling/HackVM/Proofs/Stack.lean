import Mathlib
import HackVM.Proofs.Execution
import HackVM.Proofs.Positions

/-!
# Commands that work on the stack

What pushing, popping, arithmetic and the start of a function do to memory. The code of each is executed
from any state whose stack pointer names a cell above the registers, whichever of its foldings was
chosen.
-/

namespace HackVM

/-- The memory behind pushing a value on a stack that ends at a cell. -/
def pushed (ram : Memory) (s : Nat) (value : Word) : Memory :=
  poke (poke ram 0 (word (s + 1))) s value

/-- The memory behind popping the value at a cell, the topmost one, into another cell. -/
def popped (ram : Memory) (s cell : Nat) : Memory :=
  poke (poke ram 0 (word s)) cell (peek ram s)

/-- The memory behind pushing a number of zeros on a stack that ends at a cell. -/
def cleared (ram : Memory) (s : Nat) : Nat → Memory
  | 0 => ram
  | count + 1 => cleared (pushed ram s 0) (s + 1) count

/-- The stack pointer behind a push names the next cell. -/
lemma peek_pushed_zero {ram : Memory} {s : Nat} (pos : 0 < s) (value : Word) :
    peek (pushed ram s value) 0 = word (s + 1) := by
  rw [pushed, peek_poke_of_ne pos.ne', peek_poke_self zero_lt_ramSize]

/-- A number that an instruction holds is positive as a word exactly if it is not zero. -/
lemma Jump.taken_ifPositive_word {count : Nat} (h : count < 32768) :
    Jump.ifPositive.taken (word count) = decide (0 < count) := by
  have value : (word count).toInt = count := by
    rw [BitVec.toInt_eq_toNat_of_lt] <;> rw [toNat_word (h.trans (by decide))]
    omega
  simp [Jump.taken, Jump.ifPositive, value]

namespace Location

/-- The cell that a place names; a mere value names none. -/
def cell? (location : Location) (image : Image) (ram : Memory) : Option Nat :=
  match location with
  | .indirect base offset => some (peek ram base.address + word offset.toNat).toNat
  | .direct register => some register.address
  | .immediate _ => none
  | .variable symbol => some (image.cellOf symbol)

/-- The value at a place. -/
def content (location : Location) (image : Image) (ram : Memory) : Word :=
  match location with
  | .immediate value => word value.toNat
  | location => peek ram ((location.cell? image ram).getD 0)

/-- A place that code can reach: its base is a register and its symbol is a variable of the image. -/
def Reachable (location : Location) (image : Image) : Prop :=
  match location with
  | .indirect base _ => base.address < ramSize
  | .variable symbol => image.value (.symbol symbol) = word (image.cellOf symbol)
  | _ => True

end Location

namespace Image

open Code

variable {image : Image} {ram : Memory} {a d : Word} {pc s cell : Nat} {base : Register}
  {offset : UInt16}

attribute [local simp] exec_nil exec_address exec_number exec_assign Comp.result Comp.operand
  Comp.source? Comp.value Comp.readsMemory Dest.toA Dest.toD Dest.toM Dest.toAM Dest.toMD
  toNat_word_cell zero_lt_ramSize word_add_one word_succ_sub_one

/-- Pushing the data register. -/
lemma exec_pushD (sp : peek ram 0 = word s) (h : s < ramSize) :
    image.exec pushD ⟨ram, a, d, pc⟩ = .ok ⟨pushed ram s d, word s, d, pc + 4⟩ :=
  exec_pushComp rfl sp h

/-- Pushing the content of the cell that the address register names. -/
lemma exec_pushCell {address : Word} (sp : peek ram 0 = word s) (hs : s < ramSize)
    (h : address.toNat < ramSize) :
    image.exec ([assign .toD (.input .m)] ++ pushD) ⟨ram, address, d, pc⟩ =
      .ok ⟨pushed ram s (peek ram address.toNat), word s, peek ram address.toNat, pc + 5⟩ := by
  have read : image.exec [assign .toD (.input .m)] ⟨ram, word address.toNat, d, pc⟩ =
      .ok ⟨ram, word address.toNat, peek ram address.toNat, pc + 1⟩ := by
    simp [h]
  rw [word_toNat] at read
  rw [exec_append read, exec_pushD sp hs]

/-- Pushing from an offset of a base: every folding of the offset pushes the same cell. -/
lemma exec_pushIndirect (sp : peek ram 0 = word s) (hs : s < ramSize) (hb : base.address < ramSize)
    (h : (peek ram base.address + word offset.toNat).toNat < ramSize) :
    ∃ a' d', image.exec (Location.indirect base offset).pushCode ⟨ram, a, d, pc⟩ =
      .ok ⟨pushed ram s (peek ram (peek ram base.address + word offset.toNat).toNat), a', d',
        pc + (Location.indirect base offset).pushCode.size⟩ := by
  rw [Location.pushCode, List.append_assoc]
  split_ifs with zero one
  · subst zero
    have address : image.exec [Code.address base, assign .toA (.input .m)] ⟨ram, a, d, pc⟩ =
        .ok ⟨ram, peek ram base.address + word (0 : UInt16).toNat, d, pc + 2⟩ := by
      rw [show word (0 : UInt16).toNat = 0#16 from rfl]
      simp [hb]
    rw [exec_append address, exec_pushCell sp hs h]
    exact ⟨_, _, rfl⟩
  · subst one
    have address : image.exec [Code.address base, assign .toA (.inc .m)] ⟨ram, a, d, pc⟩ =
        .ok ⟨ram, peek ram base.address + word (1 : UInt16).toNat, d, pc + 2⟩ := by
      rw [show word (1 : UInt16).toNat = 1#16 from rfl]
      simp [hb]
    rw [exec_append address, exec_pushCell sp hs h]
    exact ⟨_, _, rfl⟩
  · have address : image.exec [number offset, assign .toD (.input .a), Code.address base,
        assign .toA (.add .m)] ⟨ram, a, d, pc⟩ =
        .ok ⟨ram, peek ram base.address + word offset.toNat, word offset.toNat, pc + 4⟩ := by
      simp [hb, BitVec.add_comm]
    rw [exec_append address, exec_pushCell sp hs h]
    exact ⟨_, _, rfl⟩

/-- Pushing a number: every folding pushes the same value. -/
lemma exec_pushImmediate {value : UInt16} (sp : peek ram 0 = word s) (hs : s < ramSize) :
    ∃ a' d', image.exec (Location.immediate value).pushCode ⟨ram, a, d, pc⟩ =
      .ok ⟨pushed ram s (word value.toNat), a', d',
        pc + (Location.immediate value).pushCode.size⟩ := by
  rw [Location.pushCode]
  split_ifs with zero one
  · subst zero
    rw [exec_pushComp rfl sp hs]
    exact ⟨_, _, rfl⟩
  · subst one
    rw [exec_pushComp rfl sp hs]
    exact ⟨_, _, rfl⟩
  · rw [exec_append (exec_loadNumber value), exec_pushD sp hs]
    exact ⟨_, _, rfl⟩

/-- Pushing the value at a place. -/
lemma exec_pushCode {location : Location} (reachable : location.Reachable image)
    (sp : peek ram 0 = word s) (hs : s < ramSize)
    (h : ∀ cell ∈ location.cell? image ram, cell < ramSize) :
    ∃ a' d', image.exec location.pushCode ⟨ram, a, d, pc⟩ =
      .ok ⟨pushed ram s (location.content image ram), a', d', pc + location.pushCode.size⟩ := by
  cases location with
  | immediate value => exact exec_pushImmediate sp hs
  | indirect base offset => exact exec_pushIndirect sp hs reachable (h _ rfl)
  | direct register =>
    rw [Location.pushCode, exec_append (exec_loadD (h _ rfl)), exec_pushD sp hs]
    exact ⟨_, _, rfl⟩
  | _ symbol =>
    have cell : (word (image.cellOf symbol)).toNat = image.cellOf symbol :=
      toNat_word_cell (h _ rfl)
    rw [Location.pushCode, List.cons_append, exec_symbol reachable,
      exec_pushCell sp hs (by rw [cell]; exact h _ rfl), cell]
    exact ⟨_, _, rfl⟩

/-- Every folding of an offset computes the address of the same cell. -/
lemma exec_addressCode (hb : base.address < ramSize) :
    ∃ a', image.exec (Location.addressCode base offset) ⟨ram, a, d, pc⟩ =
      .ok ⟨ram, a', peek ram base.address + word offset.toNat,
        pc + (Location.addressCode base offset).size⟩ := by
  rw [Location.addressCode]
  split_ifs with zero one
  · subst zero
    rw [exec_loadD hb, show word (0 : UInt16).toNat = 0#16 from rfl, BitVec.add_zero]
    exact ⟨_, rfl⟩
  · subst one
    have address : image.exec [Code.address base, assign .toD (.inc .m)] ⟨ram, a, d, pc⟩ =
        .ok ⟨ram, word base.address, peek ram base.address + 1#16, pc + 2⟩ := by
      simp [hb]
    exact ⟨_, address⟩
  · have address : image.exec [number offset, assign .toD (.input .a), Code.address base,
        assign .toD (.add .m)] ⟨ram, a, d, pc⟩ =
        .ok ⟨ram, word base.address, peek ram base.address + word offset.toNat, pc + 4⟩ := by
      simp [hb, BitVec.add_comm]
    exact ⟨_, address⟩

/-- The address of a cell and the popped value are told apart from their sum. -/
lemma exec_exchange {address : Word} (sp : peek ram 0 = word (s + 1)) (pos : 0 < s)
    (hs : s < ramSize) (h : address.toNat < ramSize) :
    image.exec [Code.address .sp, assign .toAM (.dec .m), assign .toD (.add .m),
      assign .toA (.sub .m), assign .toM (.sub .a)] ⟨ram, a, address, pc⟩ =
      .ok ⟨popped ram s address.toNat, address, address + peek ram s, pc + 5⟩ := by
  have sum : image.exec [Code.address .sp, assign .toAM (.dec .m), assign .toD (.add .m),
      assign .toA (.sub .m)] ⟨ram, a, address, pc⟩ =
        .ok ⟨poke ram 0 (word s), word address.toNat, address + peek ram s, pc + 4⟩ := by
    simp [sp, hs, pos.ne, word_toNat]
  have store : image.exec [assign .toM (.sub .a)]
      ⟨poke ram 0 (word s), word address.toNat, address + peek ram s, pc + 4⟩ =
        .ok ⟨popped ram s address.toNat, address, address + peek ram s, pc + 5⟩ := by
    rw [exec_assign fun _ => h]
    simp [word_toNat, popped, BitVec.add_comm address]
  rw [← store]
  exact exec_append sum

/-- Popping a value into a place. -/
lemma exec_popCode {location : Location} {code : Code} (reachable : location.Reachable image)
    (place : location.popCode? = some code) (sp : peek ram 0 = word (s + 1)) (pos : 0 < s)
    (hs : s < ramSize) (named : location.cell? image ram = some cell) (h : cell < ramSize) :
    ∃ a' d', image.exec code ⟨ram, a, d, pc⟩ =
      .ok ⟨popped ram s cell, a', d', pc + code.size⟩ := by
  cases location with
  | immediate value => exact nomatch place
  | indirect base offset =>
    cases place
    cases named
    obtain ⟨a', address⟩ : ∃ a', image.exec (Location.addressCode base offset) ⟨ram, a, d, pc⟩ =
        .ok ⟨ram, a', _, _⟩ := exec_addressCode reachable
    -- The address is computed before the stack pointer moves, so it may even name the pointer.
    rw [exec_append address, exec_exchange sp pos hs h, Code.size_append, ← Nat.add_assoc]
    exact ⟨_, _, rfl⟩
  | direct register =>
    cases place
    cases named
    rw [exec_append (exec_popD sp pos hs), exec_storeD h]
    exact ⟨_, _, rfl⟩
  | _ symbol =>
    cases place
    cases named
    rw [exec_append (exec_popD sp pos hs), exec_symbol reachable, exec_assign fun _ => h]
    exact ⟨_, _, rfl⟩

/-- Replacing the two topmost values by one computed from them. -/
lemma exec_binary {comp : Comp} (memory : comp.source? = some .m) (sp : peek ram 0 = word (s + 2))
    (pos : 0 < s) (hs : s + 1 < ramSize) :
    image.exec (binary comp) ⟨ram, a, d, pc⟩ =
      .ok ⟨poke (poke ram 0 (word (s + 1))) s (comp.value (peek ram (s + 1)) (peek ram s)), word s,
        peek ram (s + 1), pc + 5⟩ := by
  have cell : s < ramSize := Nat.lt_of_succ_lt hs
  rw [binary, exec_append (exec_popD sp (Nat.succ_pos s) hs), exec_stepDown, exec_assign fun _ => cell]
  simp [cell, pos.ne, memory, -Comp.value, -Comp.source?]

/-- Replacing the topmost value by one computed from it. -/
lemma exec_unary {comp : Comp} (memory : comp.source? = some .m) (sp : peek ram 0 = word (s + 1))
    (hs : s < ramSize) :
    image.exec (unary comp) ⟨ram, a, d, pc⟩ =
      .ok ⟨poke ram s (comp.value d (peek ram s)), word s, d, pc + 3⟩ := by
  rw [unary, exec_append (exec_addressTop sp), exec_assign fun _ => hs]
  simp [hs, memory, -Comp.value, -Comp.source?]

/-- Pushing zeros one by one. -/
lemma exec_pushZeros (count : Nat) (sp : peek ram 0 = word s) (pos : 0 < s)
    (h : s + count ≤ ramSize) :
    ∃ a', image.exec (List.replicate count (pushComp .zero)).flatten ⟨ram, a, d, pc⟩ =
      .ok ⟨cleared ram s count, a', d,
        pc + Code.size (List.replicate count (pushComp .zero)).flatten⟩ := by
  induction count generalizing ram a pc s with
  | zero => exact ⟨a, rfl⟩
  | succ count ih =>
    rw [List.replicate_succ, List.flatten_cons, exec_append (exec_pushComp rfl sp (by omega)),
      Code.size_append, ← Nat.add_assoc]
    exact ih (peek_pushed_zero pos 0) (Nat.succ_pos s) (by omega)

/-- The loop that clears the local variables counts down in the data register. -/
lemma Holds.reaches_cleared {label : String} {count : Nat}
    (holds : image.Holds pc (.label label :: assign .toD .decD ::
      (pushComp .zero ++ branch label .ifPositive)))
    (sp : peek ram 0 = word s) (pos : 0 < s) (h : s + count + 1 ≤ ramSize)
    (small : count < 32768) :
    ∃ a', image.Reaches ⟨ram, a, word (count + 1), pc⟩
      ⟨cleared ram s (count + 1), a', word 0, pc + 7⟩ := by
  -- One turn of the loop, from any state; the induction is on how many are left.
  have turn : ∀ (ram : Memory) (a : Word) (s count : Nat), peek ram 0 = word s → s < ramSize →
      count < 32768 → image.Reaches ⟨ram, a, word (count + 1), pc⟩
        ⟨pushed ram s 0, word pc, word count, if 0 < count then pc else pc + 7⟩ := by
    intro ram a s count sp hs small
    refine Holds.reaches holds rfl ?_
    have counted : image.exec [.label label, assign .toD .decD] ⟨ram, a, word (count + 1), pc⟩ =
        .ok ⟨ram, a, word count, pc + 1⟩ := by
      rw [exec_cons rfl, ← word_toNat a, exec_assign fun h => absurd h (by decide)]
      simp
    rw [show Instruction.label label :: assign .toD .decD :: (pushComp .zero ++
      branch label .ifPositive) = [.label label, assign .toD .decD] ++ (pushComp .zero ++
      branch label .ifPositive) from rfl, exec_append counted, exec_append (exec_pushComp rfl sp hs),
      exec_branch holds.1, Jump.taken_ifPositive_word small]
    simp [pushed]
  induction count generalizing ram a s with
  | zero => exact ⟨_, turn ram a s 0 sp (by omega) small⟩
  | succ count ih =>
    have first := turn ram a s (count + 1) sp (by omega) small
    rw [if_pos (Nat.succ_pos count)] at first
    obtain ⟨a', rest⟩ := ih (peek_pushed_zero pos 0) (Nat.succ_pos s) (by omega) (by omega)
    exact ⟨a', first.trans rest⟩

/-- The start of a function pushes a zero for each local variable, one by one or in a loop. -/
lemma Holds.reaches_prologue {scope : Scope} {locals inlineMax : UInt16}
    (holds : image.Holds pc (scope.prologue locals inlineMax)) (fits : locals ≤ maxImmediate)
    (sp : peek ram 0 = word s) (pos : 0 < s) (h : s + locals.toNat ≤ ramSize) :
    ∃ a' d', image.Reaches ⟨ram, a, d, pc⟩ ⟨cleared ram s locals.toNat, a', d',
      pc + (scope.prologue locals inlineMax).size⟩ := by
  rw [Scope.prologue] at holds ⊢
  by_cases few : locals ≤ inlineMax
  · rw [if_pos few] at holds ⊢
    obtain ⟨a', executed⟩ : ∃ a', image.exec _ ⟨ram, a, d, pc⟩ = .ok ⟨_, a', d, _⟩ :=
      exec_pushZeros locals.toNat sp pos h
    refine ⟨a', d, Holds.reaches holds ?_ executed⟩
    refine List.all_eq_true.mpr fun instruction hi => ?_
    obtain ⟨code, hc, hi⟩ := List.mem_flatten.mp (List.mem_of_mem_dropLast hi)
    obtain rfl := List.eq_of_mem_replicate hc
    have straight : ∀ instruction ∈ pushComp .zero, instruction.fallsThrough = true := by decide
    exact straight instruction hi
  · rw [if_neg few] at holds ⊢
    obtain ⟨count, e⟩ : ∃ count, locals.toNat = count + 1 := by
      have some : inlineMax < locals := UInt16.not_le.mp few
      exact ⟨locals.toNat - 1, by have := UInt16.lt_iff_toNat_lt.mp some; omega⟩
    have small : locals.toNat ≤ 32767 := UInt16.le_iff_toNat_le.mp fits
    rw [List.append_assoc] at holds
    have start : image.Holds pc [number locals, assign .toD (.input .a)] := by
      exact ⟨holds.1, holds.2.1, trivial⟩
    have loop : image.Holds (pc + 2) (.label scope.localsLoop :: assign .toD .decD ::
        (pushComp .zero ++ branch scope.localsLoop .ifPositive)) := holds.2.2
    have loaded : image.Reaches ⟨ram, a, d, pc⟩ _ :=
      Holds.reaches start rfl (exec_loadNumber locals)
    rw [e] at loaded h ⊢
    obtain ⟨a', cleared⟩ : ∃ a', image.Reaches ⟨ram, word (count + 1), word (count + 1), pc + 2⟩
        ⟨_, a', _, _⟩ := loop.reaches_cleared sp pos (by omega) (by omega)
    exact ⟨a', word 0, loaded.trans cleared⟩

end Image

end HackVM
