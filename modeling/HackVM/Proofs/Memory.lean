import Mathlib
import HackVM.Machine.Computer

/-!
# Words and memory

The memory of the computer as a total map from cells to words: `peek` and `poke` need no proof that a
cell exists, and agree with reading and writing where it does. `AgreeOff` compares two memories
outside some cells, which is how the scratch cells are left out of every statement about a program.
-/

namespace HackVM

/-- The word that stands for a number. -/
def word (n : Nat) : Word := BitVec.ofNat 16 n

/-- A number below the number of addresses is the value of its word. -/
lemma toNat_word {n : Nat} (h : n < addressSpace) : (word n).toNat = n := by
  rw [word, BitVec.toNat_ofNat]
  exact Nat.mod_eq_of_lt h

/-- Every word stands for its value. -/
lemma word_toNat (value : Word) : word value.toNat = value := by
  simp [word]

lemma word_add (m n : Nat) : word m + word n = word (m + n) :=
  (BitVec.ofNat_add m n).symm

lemma word_add_one (n : Nat) : word n + 1#16 = word (n + 1) :=
  word_add n 1

lemma word_add_sub (m n : Nat) : word (m + n) - word n = word m := by
  rw [← word_add, BitVec.add_sub_cancel]

lemma word_sub {m n : Nat} (h : n ≤ m) : word m - word n = word (m - n) := by
  rw [← word_add_sub (m - n) n, Nat.sub_add_cancel h]

lemma word_succ_sub_one (n : Nat) : word (n + 1) - 1#16 = word n :=
  word_add_sub n 1

lemma zero_lt_ramSize : 0 < ramSize := by decide

/-- The number of a cell is the value of its word. -/
lemma toNat_word_cell {cell : Nat} (h : cell < ramSize) : (word cell).toNat = cell :=
  toNat_word (h.trans (by decide))

/-- The contents of all cells. -/
abbrev Memory := Vector Word ramSize

/-- The content of a cell; a cell that does not exist counts as zero. -/
def peek (ram : Memory) (cell : Nat) : Word :=
  ram[cell]?.getD 0

/-- Stores a value in a cell; a cell that does not exist takes nothing. -/
def poke (ram : Memory) (cell : Nat) (value : Word) : Memory :=
  ram.setIfInBounds cell value

section Cells

variable {ram ram' ram'' : Memory} {cell other address : Nat} {value : Word}

@[simp]
lemma peek_poke_self (h : cell < ramSize) : peek (poke ram cell value) cell = value := by
  simp [peek, poke, h]

@[simp]
lemma peek_poke_of_ne (h : cell ≠ other) : peek (poke ram cell value) other = peek ram other := by
  simp [peek, poke, h]

/-- What a cell holds after a store, in one equation. -/
lemma peek_poke (h : cell < ramSize) :
    peek (poke ram cell value) other = if cell = other then value else peek ram other := by
  split_ifs with e
  · exact e ▸ peek_poke_self h
  · exact peek_poke_of_ne e

/-- Memories with the same cells are equal. -/
lemma memory_ext (h : ∀ cell < ramSize, peek ram cell = peek ram' cell) : ram = ram' := by
  refine Vector.ext fun cell hc => ?_
  have := h cell hc
  simpa [peek, hc] using this

/-- Storing what a cell holds already changes nothing. -/
lemma poke_of_peek (h : peek ram cell = value) (hc : cell < ramSize) : poke ram cell value = ram := by
  refine memory_ext fun other _ => ?_
  rw [peek_poke hc]
  split_ifs with e
  · exact e ▸ h.symm
  · rfl

/-- The later of two stores to one cell counts. -/
lemma poke_poke_self (first second : Word) :
    poke (poke ram cell first) cell second = poke ram cell second := by
  simp [poke]

/-- Stores to different cells can be made in any order. -/
lemma poke_comm (h : cell ≠ other) (first second : Word) :
    poke (poke ram cell first) other second = poke (poke ram other second) cell first := by
  refine Vector.ext fun index hi => ?_
  simp only [poke, Vector.getElem_setIfInBounds]
  split_ifs with e e' <;> first | rfl | exact absurd (e'.trans e.symm) h

/-- The computer reads what a cell holds. -/
lemma read_eq_peek (computer : Computer) (h : address < ramSize) :
    computer.read address = .ok (peek computer.ram address) := by
  simp [computer.read_eq_ok h, peek, h]

/-- The computer writes to a cell. -/
lemma write_eq_poke (computer : Computer) (h : address < ramSize) :
    computer.write address value = .ok { computer with ram := poke computer.ram address value } := by
  rw [computer.write_eq_ok value h]
  congr 2
  refine memory_ext fun cell hc => ?_
  rw [peek_poke h]
  simp [peek, hc, Vector.getElem_set]

/-- Two memories hold the same outside some cells. -/
def AgreeOff (cells : List Nat) (ram ram' : Memory) : Prop :=
  ∀ cell, cell ∉ cells → peek ram cell = peek ram' cell

namespace AgreeOff

variable {cells : List Nat}

lemma refl (cells : List Nat) (ram : Memory) : AgreeOff cells ram ram :=
  fun _ _ => rfl

lemma trans (h : AgreeOff cells ram ram') (h' : AgreeOff cells ram' ram'') :
    AgreeOff cells ram ram'' :=
  fun cell hc => (h cell hc).trans (h' cell hc)

/-- Memories that agree outside some cells agree outside more cells. -/
lemma mono {cells' : List Nat} (h : AgreeOff cells ram ram') (more : cells ⊆ cells') :
    AgreeOff cells' ram ram' :=
  fun cell hc => h cell fun hm => hc (more hm)

/-- The same store on both sides keeps the agreement, wherever it goes. -/
lemma poke_both (h : AgreeOff cells ram ram') (target : Nat) (value : Word) :
    AgreeOff cells (poke ram target value) (poke ram' target value) := by
  intro cell hc
  by_cases e : target = cell
  · subst e
    by_cases ht : target < ramSize
    · rw [peek_poke_self ht, peek_poke_self ht]
    · simp [poke, peek, ht]
  · rw [peek_poke_of_ne e, peek_poke_of_ne e]
    exact h cell hc

/-- A store to one of the cells left out keeps the agreement. -/
lemma poke_left (h : AgreeOff cells ram ram') {target : Nat} (ht : target ∈ cells) (value : Word) :
    AgreeOff cells (poke ram target value) ram' := by
  intro cell hc
  have ne : target ≠ cell := fun e => hc (e ▸ ht)
  rw [peek_poke_of_ne ne]
  exact h cell hc

/-- Copying a cell that is not left out keeps the agreement. -/
lemma poke_peek (h : AgreeOff cells ram ram') (target : Nat) {source : Nat}
    (hs : source ∉ cells) :
    AgreeOff cells (poke ram target (peek ram source)) (poke ram' target (peek ram' source)) := by
  rw [h source hs]
  exact h.poke_both target _

end AgreeOff

end Cells

end HackVM
