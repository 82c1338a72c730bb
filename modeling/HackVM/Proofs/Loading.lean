import Mathlib
import HackVM.Machine.Image
import HackVM.Proofs.Labels
import HackVM.Proofs.Memory

/-!
# Loaded programs

What loading makes of the code of an acceptable program. `Image.Holds` says that code stands in program
memory from an address on, with its labels placed at the addresses where they stand; a loaded program
holds its whole code, so it holds each shared routine and the code of each of its lines.
-/

namespace HackVM

namespace Code

@[simp]
lemma size_cons_label (name : String) (rest : Code) : size (.label name :: rest) = rest.size := by
  simp [size, Instruction.isCode]

@[simp]
lemma size_cons_load (operand : Operand) (rest : Code) :
    size (.load operand :: rest) = rest.size + 1 :=
  List.countP_cons_of_pos rfl

@[simp]
lemma size_cons_compute (dest : Dest) (comp : Comp) (jump : Jump) (rest : Code) :
    size (.compute dest comp jump :: rest) = rest.size + 1 :=
  List.countP_cons_of_pos rfl

/-- Labels behind a piece of code are placed behind it. -/
lemma labelTable_append (first second : Code) (address : Nat) :
    labelTable (first ++ second) address =
      first.labelTable address ++ second.labelTable (address + first.size) := by
  induction first generalizing address with
  | nil => rfl
  | cons instruction rest ih =>
    cases instruction with
    | label name => simp [labelTable, ih]
    | _ => simp [labelTable, ih, Nat.add_assoc, Nat.add_comm 1]

end Code

namespace Text

/-- Only digits, behind at most one plus sign, are read as a numeral. -/
lemma readWord?_eq_none {word : List Char} {c : Char} (hc : c ∈ word) (digit : c.isDigit = false)
    (plus : c ≠ '+') : readWord? word = none := by
  have unread : ∀ digits, c ∈ digits → readDigits? digits = none := by
    intro digits hc
    rw [readDigits?, if_neg]
    simp only [Bool.and_eq_true, List.all_eq_true, not_and]
    intro _ all
    exact absurd (all c hc) (by simp [digit])
  have unsigned : readNat? word = none := by
    unfold readNat?
    split
    · refine unread _ ?_
      rcases List.mem_cons.mp hc with rfl | hc
      · exact absurd rfl plus
      · exact hc
    · exact unread _ hc
  rw [readWord?, unsigned]
  rfl

end Text

/-- The names that the platform defines have only letters, digits and plus signs. -/
lemma predefined?_eq_none {name : String} {c : Char} (hc : c ∈ name.toList)
    (h : c.isAlphanum = false) (plus : c ≠ '+') : predefined? name = none := by
  have fixed : ∀ known ∈ ["SP", "LCL", "ARG", "THIS", "THAT", "SCREEN", "KBD"], name ≠ known := by
    rintro known hk rfl
    have letters : ∀ known ∈ ["SP", "LCL", "ARG", "THIS", "THAT", "SCREEN", "KBD"],
      ∀ c ∈ known.toList, c.isAlphanum = true := by simp
    exact absurd (letters _ hk c hc) (by simp [h])
  have digit : c.isDigit = false := by
    simp only [Char.isAlphanum, Bool.or_eq_false_iff] at h
    exact h.2
  unfold predefined?
  split
  -- What is left besides the fixed names is an "R" in front of a number.
  case h_8 =>
    split
    · next digits e =>
      have tail : c ∈ digits := by
        rcases List.mem_cons.mp (e ▸ hc) with rfl | hc
        · exact absurd h (by decide)
        · exact hc
      rw [Text.readWord?_eq_none tail digit plus]
      rfl
    · rfl
  all_goals exact absurd rfl (fixed _ (by simp))

namespace Image

/-- The word that an operand stands for. -/
def value (image : Image) (operand : Operand) : Word :=
  operandValue image.labels image.vars operand

/-- A label stands for an address: it is listed there and the platform gives it no other value. -/
structure Places (image : Image) (name : String) (address : Nat) : Prop where
  listed : image.labels.lookup name = some address
  free : predefined? name = none
  inRom : address ≤ romSize

/-- Code stands in program memory from an address on, and its labels are placed there. -/
def Holds (image : Image) : (address : Nat) → Code → Prop
  | _, [] => True
  | address, .label name :: rest => image.Places name address ∧ Holds image address rest
  | address, .load operand :: rest =>
    image.rom[address]? = some (.load (image.value operand)) ∧ Holds image (address + 1) rest
  | address, .compute dest comp jump :: rest =>
    image.rom[address]? = some (.compute dest comp jump) ∧ Holds image (address + 1) rest

variable {image : Image} {code : Code} {name : String} {address : Nat}

/-- Two pieces of code stand one behind the other. -/
lemma holds_append {first second : Code} :
    image.Holds address (first ++ second) ↔
      image.Holds address first ∧ image.Holds (address + first.size) second := by
  induction first generalizing address with
  | nil => simp [Holds]
  | cons instruction rest ih =>
    cases instruction with
    | label name => simp [Holds, ih, and_assoc]
    | _ => simp [Holds, ih, and_assoc, Nat.add_assoc, Nat.add_comm 1]

/-- A label that stands for an address loads as that address. -/
lemma Places.value (h : image.Places name address) : image.value (.symbol name) = word address := by
  simp [Image.value, operandValue, symbolValue, fixed?, h.free, h.listed, word]

lemma Places.toNat_word (h : image.Places name address) : (word address).toNat = address :=
  HackVM.toNat_word (h.inRom.trans_lt (by decide))

lemma cells_append (labels : List (String × Nat)) (vars : List String) (first second : Code) :
    cells labels vars (first ++ second) = cells labels vars first ++ cells labels vars second :=
  List.filterMap_append ..

/-- Code has as many words as its size says. -/
lemma length_cells (labels : List (String × Nat)) (vars : List String) (code : Code) :
    (cells labels vars code).length = code.size := by
  induction code with
  | nil => rfl
  | cons instruction rest ih =>
    cases instruction <;> simpa [cells] using ih

/-- Loading succeeds when no fault is found, and fills program memory with the words of the code. -/
lemma ofCode_eq_ok_iff :
    ofCode code = .ok image ↔
      fault? code = none ∧ image =
        ⟨(cells (code.labelTable 0) (variablesOf (code.labelTable 0) code) code).toArray,
          code.labelTable 0, variablesOf (code.labelTable 0) code⟩ := by
  unfold ofCode
  cases fault? code with
  | some fault => simp
  | none => simp [eq_comm]

/-- Code whose labels are different has no fault exactly if it fits program memory and its numbers fit
an instruction. -/
lemma fault?_eq_none_iff (distinct : code.labels.Nodup) :
    fault? code = none ↔ code.size ≤ romSize ∧ code.wideNumber? = none := by
  rw [fault?, firstRepeated?_placedLabels distinct]
  dsimp only
  split_ifs with overflow large
  · have : romSize < code.size := lt_of_lt_of_le (by decide) overflow
    simp [Nat.not_le.mpr this]
  · simp [Nat.not_le.mpr large]
  · simp [Nat.not_lt.mp large]

/-- The variables of code are noted in the order of their first appearance. -/
lemma distinct_eq_noted (names : List String) : distinct names = noted [] names := by
  simp [distinct, noted]

/-- Loaded code stands in program memory from the first address on. -/
lemma holds_of_ofCode (h : ofCode code = .ok image) (distinct : code.labels.Nodup)
    (free : ∀ name ∈ code.labels, predefined? name = none) : image.Holds 0 code := by
  obtain ⟨sound, rfl⟩ := ofCode_eq_ok_iff.mp h
  have fits := ((fault?_eq_none_iff distinct).mp sound).1
  set labels := code.labelTable 0 with labels_eq
  set vars := variablesOf labels code
  -- The statement for every suffix of the code, by induction on the suffix.
  suffices ∀ rest front, code = front ++ rest →
      Holds ⟨(cells labels vars code).toArray, labels, vars⟩ front.size rest from
    this code [] rfl
  intro rest
  induction rest with
  | nil => exact fun _ _ => trivial
  | cons instruction rest ih =>
    intro front e
    have next := ih (front ++ [instruction]) (by simp [e])
    cases instruction with
    | label name =>
      have listed : (name, front.size) ∈ labels := by
        simp [labels_eq, e, Code.labelTable_append, Code.labelTable]
      refine ⟨⟨?_, free name (by simp [e]), ?_⟩, by simpa using next⟩
      · exact lookup_of_mem (by rwa [labels_eq, Code.map_fst_labelTable]) listed
      · refine le_trans ?_ fits
        simp [e]
    | _ =>
      refine ⟨?_, by simpa using next⟩
      rw [List.getElem?_toArray]
      conv_lhs => rw [e, cells_append, ← length_cells labels vars front]
      simp [cells, Image.value]

end Image

namespace Code

/-- Every number in the code fits an instruction. -/
def Narrow (code : Code) : Prop :=
  ∀ value, .load (.constant value) ∈ code → value ≤ maxImmediate

/-- Code has no number that is too wide exactly if all its numbers fit an instruction. -/
lemma wideNumber?_eq_none_iff {code : Code} : code.wideNumber? = none ↔ code.Narrow := by
  rw [wideNumber?, List.findSome?_eq_none_iff]
  constructor
  · intro h value hv
    have := h _ hv
    simpa using this
  · intro h instruction hi
    split
    · next value => simpa using h value hi
    · rfl

lemma narrow_append {first second : Code} :
    Narrow (first ++ second) ↔ first.Narrow ∧ second.Narrow := by
  simp only [Narrow, List.mem_append, or_imp, forall_and]

/-- Code without a number is narrow. -/
lemma narrow_of_forall_ne {code : Code} (h : ∀ value, .load (.constant value) ∉ code) :
    code.Narrow :=
  fun value hv => absurd hv (h value)

end Code

/-- The number in a place, if it has one, fits an instruction. -/
def Location.Narrow : Location → Prop
  | .indirect _ offset => offset ≤ maxImmediate
  | .immediate value => value ≤ maxImmediate
  | _ => True

/-- Every place that an index of a segment names has a number that fits an instruction. -/
lemma Segment.narrow_of_resolve {segment : Segment} {unit : String} {index : UInt16}
    {location : Location} (h : segment.resolve unit index = .ok location) : location.Narrow := by
  unfold Segment.resolve at h
  by_cases high : segment.maxIndex < index
  · rw [if_pos high] at h
    exact nomatch h
  · rw [if_neg high] at h
    cases h
    rw [UInt16.not_lt] at high
    cases segment <;> first | exact high | trivial

namespace Location

/-- Pushing from a narrow place takes narrow code. -/
lemma Narrow.pushCode {location : Location} (h : location.Narrow) :
    location.pushCode.Narrow := by
  intro value hv
  cases location with
  | immediate n =>
    rw [Location.pushCode] at hv
    split_ifs at hv <;>
      simp [Code.pushComp, Code.pushD, Code.number, Code.address, Code.assign] at hv
    exact hv ▸ h
  | indirect base offset =>
    rw [Location.pushCode] at hv
    split_ifs at hv <;>
      simp [Code.pushComp, Code.pushD, Code.number, Code.address, Code.assign] at hv
    exact hv ▸ h
  | _ =>
    simp [Location.pushCode, Code.loadD, Code.symbol, Code.pushComp, Code.pushD, Code.address,
      Code.assign] at hv

/-- Popping into a narrow place takes narrow code. -/
lemma Narrow.popCode {location : Location} {code : Code} (h : location.Narrow)
    (place : location.popCode? = some code) : code.Narrow := by
  intro value hv
  cases location with
  | immediate n => exact nomatch place
  | indirect base offset =>
    cases place
    rw [addressCode] at hv
    split_ifs at hv <;>
      simp [Code.loadD, Code.number, Code.address, Code.assign] at hv
    exact hv ▸ h
  | _ =>
    cases place
    simp [Code.popD, Code.storeD, Code.symbol, Code.address, Code.assign] at hv

end Location

namespace Line

variable {functions : List (String × String)} {inlineMax : UInt16} {returns : Nat} {scope : Scope}

/-- The code of a line is narrow. -/
lemma Lowers.narrow {command : Command} {code : Code}
    (h : Lowers functions inlineMax returns scope command code) : code.Narrow := by
  cases h with
  | push resolved => exact (Segment.narrow_of_resolve resolved).pushCode
  | pop resolved place => exact (Segment.narrow_of_resolve resolved).popCode place
  | operate operation =>
    refine Code.narrow_of_forall_ne fun value => ?_
    cases operation <;>
      simp [Site.lowerOperation, Code.binary, Code.unary, Code.callCompare, Code.popD,
        Code.addressTop, Code.goto, Code.symbol, Code.address, Code.assign, Code.jump]
  | @function _ locals fits =>
    intro value hv
    rw [Scope.prologue] at hv
    split_ifs at hv
    · simp [Code.pushComp, Code.address, Code.assign] at hv
    · simp [Code.pushComp, Code.branch, Code.number, Code.symbol, Code.address, Code.assign,
        Code.jump] at hv
      exact hv ▸ fits
  | @call _ _ arguments fits =>
    intro value hv
    rw [Code.callSequence, Code.loadArgumentCount] at hv
    split_ifs at hv <;>
      simp [Code.storeD, Code.goto, Code.number, Code.symbol, Code.address, Code.assign,
        Code.jump] at hv
    exact hv ▸ fits
  | _ =>
    refine Code.narrow_of_forall_ne fun value => ?_
    simp [Code.goto, Code.branch, Code.popD, Code.symbol, Code.address, Code.assign, Code.jump]

/-- The code of well-formed lines is narrow. -/
lemma narrow_codeOf {lines : List Line}
    (wf : ∀ line ∈ lines, line.command.WellFormed (functions.map Prod.fst)) :
    (codeOf functions inlineMax returns lines).Narrow := by
  induction lines generalizing returns with
  | nil => exact fun value hv => nomatch hv
  | cons line rest ih =>
    rw [codeOf, Code.narrow_append]
    exact ⟨(lowers_code (wf line List.mem_cons_self)).narrow,
      ih fun line hl => wf line (.tail _ hl)⟩

end Line

end HackVM
