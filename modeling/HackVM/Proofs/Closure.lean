import Mathlib
import HackVM.Proofs.Calls
import HackVM.Proofs.Functions
import HackVM.Proofs.Referents

/-!
# Closed code

The code of a compiled program can be encoded, and it refers to nothing outside itself. Its numbers and
registers fit an instruction. Each symbol that it loads is a label that it declares or a static variable
of the program, and a jump goes to a label of its own function, a call to the entry of the callee. So
loading does not fail if the code fits, and no symbol that is jumped to is taken for a variable.
-/

namespace HackVM

/-- Whether the platform has the register: the `temp` segment has eight cells. -/
def Register.isLow : Register → Bool
  | .temp slot => decide (slot < tempSize)
  | _ => true

/-- The stack pointer is a low register. -/
@[simp]
lemma Register.isLow_sp : isLow .sp = true := rfl

/-- Whether the platform has the register that an instruction loads, if it loads one. -/
def Instruction.staysLow : Instruction → Bool
  | .load (.register cell) => cell.isLow
  | _ => true

namespace Code

/-- Every register that the code loads is among the first sixteen cells. -/
def Low (code : Code) : Prop :=
  code.all Instruction.staysLow = true

/-- Low code uses low registers. -/
lemma Low.isLow {code : Code} (h : code.Low) {cell : Register}
    (hc : .load (.register cell) ∈ code) : cell.isLow = true :=
  List.all_eq_true.mp h _ hc

/-- Code is low if its parts are. -/
lemma low_append {first second : Code} : Low (first ++ second) ↔ first.Low ∧ second.Low := by
  rw [Low, List.all_append, Bool.and_eq_true]
  rfl

/-- Pushing a value several times is low. -/
lemma low_replicate_pushComp (comp : Comp) (count : Nat) :
    Low (List.replicate count (pushComp comp)).flatten := by
  induction count with
  | zero => rfl
  | succ count ih =>
    rw [List.replicate_succ, List.flatten_cons, low_append]
    exact ⟨rfl, ih⟩

end Code

/-- The register of a place, if it has one. -/
def Location.register? : Location → Option Register
  | .indirect base _ => some base
  | .direct register => some register
  | _ => none

/-- The register that a segment and an index name is low. -/
lemma Segment.low_of_resolve {segment : Segment} {unit : String} {index : UInt16}
    {location : Location} (h : segment.resolve unit index = .ok location) :
    ∀ register ∈ location.register?, register.isLow = true := by
  have fits := (resolve_isOk_iff segment unit).mp ⟨location, h⟩
  rw [resolve.eq_def, if_neg (UInt16.not_lt.mpr fits)] at h
  intro register hr
  cases segment with
  | pointer =>
    cases h
    cases hr
    split_ifs <;> decide
  | temp =>
    cases h
    cases hr
    have slot : index.toNat ≤ 7 := UInt16.le_iff_toNat_le.mp fits
    exact decide_eq_true (Nat.lt_succ_of_le slot)
  | constant | statics =>
    cases h
    cases hr
  | _ =>
    cases h
    cases hr
    decide

namespace Location

variable {location : Location}

/-- Pushing from a low place is low. -/
lemma low_pushCode (low : ∀ register ∈ location.register?, register.isLow = true) :
    location.pushCode.Low := by
  cases location with
  | immediate value =>
    rw [pushCode]
    split_ifs <;> rfl
  | indirect base offset =>
    have base_low := low base rfl
    rw [pushCode]
    split_ifs <;>
      simp [Code.Low, Instruction.staysLow, Code.address, Code.assign, Code.number, Code.pushD,
        Code.pushComp, base_low]
  | direct register =>
    have low := low register rfl
    simp [Code.Low, Instruction.staysLow, pushCode, Code.loadD, Code.address, Code.assign,
      Code.pushD, Code.pushComp, low]
  | _ => rfl

/-- Popping to a low place is low. -/
lemma low_popCode (low : ∀ register ∈ location.register?, register.isLow = true) {code : Code}
    (place : location.popCode? = some code) : code.Low := by
  cases location with
  | immediate value => cases place
  | indirect base offset =>
    have base_low := low base rfl
    cases place
    rw [addressCode]
    split_ifs <;>
      simp [Code.Low, Instruction.staysLow, Code.address, Code.assign, Code.number, Code.loadD,
        base_low]
  | direct register =>
    have low := low register rfl
    cases place
    simp [Code.Low, Instruction.staysLow, Code.popD, Code.storeD, Code.address, Code.assign, low]
  | _ =>
    cases place
    rfl

end Location

namespace Line

variable {functions : List (String × String)} {inlineMax : UInt16} {returns : Nat} {scope : Scope}
  {command : Command} {code : Code}

/-- The code of a command is low. -/
lemma Lowers.low (h : Lowers functions inlineMax returns scope command code) : code.Low := by
  cases h with
  | push resolved => exact Location.low_pushCode (Segment.low_of_resolve resolved)
  | pop resolved place => exact Location.low_popCode (Segment.low_of_resolve resolved) place
  | operate operation => cases operation <;> rfl
  | @function _ locals =>
    have prologue : (scope.prologue locals inlineMax).Low := by
      rw [Scope.prologue]
      split_ifs
      · exact Code.low_replicate_pushComp _ _
      · rfl
    exact prologue
  | call =>
    rw [Code.callSequence, Code.loadArgumentCount]
    split_ifs <;> rfl
  | _ => rfl

/-- The code of well-formed lines is low. -/
lemma low_codeOf {lines : List Line}
    (wf : ∀ line ∈ lines, line.command.WellFormed (functions.map Prod.fst)) :
    (codeOf functions inlineMax returns lines).Low := by
  induction lines generalizing returns with
  | nil => rfl
  | cons line rest ih =>
    rw [codeOf, Code.low_append]
    exact ⟨(lowers_code (wf line List.mem_cons_self)).low, ih fun line hl => wf line (.tail _ hl)⟩

end Line

/-- The symbols of code are those that it loads. -/
lemma Code.mem_symbols_iff {code : Code} {name : String} :
    name ∈ code.symbols ↔ .load (.symbol name) ∈ code := by
  rw [symbols, List.mem_filterMap]
  constructor
  · rintro ⟨instruction, hi, e⟩
    split at e
    · cases e
      exact hi
    · cases e
  · exact fun h => ⟨_, h, rfl⟩

/-- Code that stands in program memory has its labels placed. -/
lemma Image.Holds.places_of_mem {image : Image} {address : Nat} {code : Code} {name : String}
    (holds : image.Holds address code) (h : .label name ∈ code) :
    ∃ offset ≤ code.size, image.Places name (address + offset) := by
  obtain ⟨front, rest, rfl⟩ := List.append_of_mem h
  exact ⟨Code.size front, by simp, (Image.holds_append.mp holds).2.1⟩

namespace Program

variable {settings : Settings} {program : Program}

namespace Accepted

variable (accepted : program.Accepted settings)

include accepted

/-- The code of an accepted program is low. -/
lemma low_assembly : (program.assembly settings).Low := by
  have wf : ∀ line ∈ program.lines,
      line.command.WellFormed (program.definitions.map Prod.fst) :=
    fun line hl => (accepted.line_legal hl).2.2
  have routines : Routine.allCode.Low := by
    rw [Code.Low]
    decide +kernel
  rw [assembly, preamble, Code.low_append, Code.low_append]
  exact ⟨⟨rfl, routines⟩, Line.low_codeOf wf⟩

/-- A symbol that the code of an acceptable program loads is the name of something that it knows. -/
lemma exists_known {name : String} (h : .load (.symbol name) ∈ program.assembly settings) :
    ∃ referent, program.Knows settings referent ∧ referent.name = name := by
  rw [← Code.mem_symbols_iff, accepted.symbols_assembly] at h
  obtain ⟨referent, hr, e⟩ := List.mem_map.mp h
  exact ⟨referent, accepted.knows_of_mem_referents hr, e⟩

/-- A symbol is either a label of the code or a static variable. -/
lemma xor_symbol {name : String} (h : .load (.symbol name) ∈ program.assembly settings) :
    Xor (.label name ∈ program.assembly settings)
      (∃ unit index, program.UsesStatic unit index ∧ name = staticSymbol unit index) := by
  obtain ⟨referent, known, rfl⟩ := accepted.exists_known h
  have declared_iff := accepted.name_mem_labels_iff known
  rw [Code.mem_labels_iff] at declared_iff
  by_cases unstatic : referent.static? = none
  · refine .inl ⟨declared_iff.mpr unstatic, ?_⟩
    rintro ⟨unit, index, used, e⟩
    have same : referent = .static unit index :=
      accepted.name_injOn known (mem_statics_iff.mpr used) e
    rw [same] at unstatic
    cases unstatic
  · refine .inr ⟨?_, fun declared => unstatic (declared_iff.mp declared)⟩
    cases referent with
    | static unit index => exact ⟨unit, index, mem_statics_iff.mp known, rfl⟩
    | _ => exact absurd rfl unstatic

end Accepted

end Program

end HackVM
