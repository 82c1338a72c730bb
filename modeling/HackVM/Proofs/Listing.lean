import Mathlib
import HackVM.Proofs.Closure

/-!
# Assembly text tells code apart

No two pieces of code that programs are compiled to have the same text. A line shows by its first
character whether it loads, declares or computes; what is loaded is a numeral, a name that the platform
defines or a name that it does not define; and the fields of a computation are set apart by `=` and `;`.
Text does not tell a register from a symbol that is spelled like it, and need not: the platform gives the
spelling the address of the register, so both load as the same word.
-/

namespace HackVM

namespace Register

variable {cell cell' : Register}

/-- The platform gives the symbol of a register its address. -/
lemma predefined?_symbol (h : cell.isLow = true) : predefined? cell.symbol = some cell.address := by
  cases cell with
  | temp slot =>
    have all : ∀ slot < tempSize, predefined? (temp slot).symbol = some (temp slot).address := by
      decide
    exact all slot (of_decide_eq_true h)
  | _ => decide

/-- The register at an address. -/
def ofAddress : Nat → Register
  | 0 => .sp
  | 1 => .lcl
  | 2 => .arg
  | 3 => .this
  | 4 => .that
  | 13 => .r13
  | 14 => .r14
  | 15 => .r15
  | address => .temp (address - tempBase)

/-- The register at the address of a register is that register. -/
lemma ofAddress_address (h : cell.isLow = true) : ofAddress cell.address = cell := by
  cases cell with
  | temp slot =>
    have all : ∀ slot < tempSize, ofAddress (temp slot).address = temp slot := by decide
    exact all slot (of_decide_eq_true h)
  | _ => rfl

/-- The symbols of registers tell them apart. -/
lemma symbol_inj (h : cell.isLow = true) (h' : cell'.isLow = true) (e : cell.symbol = cell'.symbol) :
    cell = cell' := by
  have addresses := predefined?_symbol h
  rw [e, predefined?_symbol h'] at addresses
  rw [← ofAddress_address h, ← Option.some.inj addresses, ofAddress_address h']

/-- The symbol of a register starts with a letter. -/
lemma exists_letter (cell : Register) : ∃ c ∈ cell.symbol.toList, c.isDigit = false := by
  cases cell with
  | sp => exact ⟨'S', by decide, by decide⟩
  | lcl => exact ⟨'L', by decide, by decide⟩
  | arg => exact ⟨'A', by decide, by decide⟩
  | this | that => exact ⟨'T', by decide, by decide⟩
  | temp slot | r13 | r14 | r15 => exact ⟨'R', by simp [symbol], by decide⟩

/-- The symbol of a register stands on one line. -/
lemma newline_notMem_symbol (cell : Register) : '\n' ∉ cell.symbol.toList := by
  cases cell with
  | temp slot =>
    intro found
    rcases List.mem_append.mp (String.toList_append ▸ found) with found | found
    · exact absurd found (by decide)
    · exact absurd (isDigit_of_mem_repr found) (by decide)
  | _ => decide

end Register

namespace Operand

/-- An operand whose text shows what it is: a register that the platform has, or a symbol that is neither
a numeral nor a name of the platform's own. -/
def Legible : Operand → Prop
  | .constant _ => True
  | .register cell => cell.isLow = true
  | .symbol name =>
    predefined? name = none ∧ (∃ c ∈ name.toList, c.isDigit = false) ∧ '\n' ∉ name.toList

variable {operand operand' : Operand}

/-- Only a constant has the text of a constant. -/
lemma eq_constant {value : UInt16} (h : operand.Legible)
    (e : operand.text = (constant value).text) : operand = .constant value := by
  have digits : ∀ c ∈ operand.text.toList, c.isDigit = true := by
    rw [e]
    exact fun c hc => isDigit_of_mem_repr hc
  cases operand with
  | constant number =>
    have same : number.toNat = value.toNat := Nat.repr_injective e
    rw [UInt16.toNat_inj.mp same]
  | register cell =>
    obtain ⟨c, hc, letter⟩ := cell.exists_letter
    exact absurd (digits c hc) (by simp [letter])
  | symbol name =>
    obtain ⟨c, hc, letter⟩ := h.2.1
    exact absurd (digits c hc) (by simp [letter])

/-- Only a register has the text of a register. -/
lemma eq_register {cell : Register} (h : operand.Legible) (low : cell.isLow = true)
    (e : operand.text = (register cell).text) : operand = .register cell := by
  cases operand with
  | constant value =>
    have low : (Operand.register cell).Legible := low
    exact (eq_constant low e.symm).symm
  | register other => exact congrArg _ (Register.symbol_inj h low e)
  | symbol name =>
    have e : name = cell.symbol := e
    have undefined := h.1
    rw [e, Register.predefined?_symbol low] at undefined
    cases undefined

/-- The texts of operands tell them apart. -/
lemma text_inj (h : operand.Legible) (h' : operand'.Legible) (e : operand.text = operand'.text) :
    operand = operand' := by
  cases operand' with
  | constant value => exact eq_constant h e
  | register cell => exact eq_register h h' e
  | symbol name =>
    cases operand with
    | constant value => exact (eq_constant h' e.symm).symm
    | register cell => exact (eq_register h' h e.symm).symm
    | symbol other => exact congrArg _ e

/-- The text of an operand stands on one line. -/
lemma newline_notMem_text (h : operand.Legible) : '\n' ∉ operand.text.toList := by
  cases operand with
  | constant value => exact fun found => absurd (isDigit_of_mem_repr found) (by decide)
  | register cell => exact cell.newline_notMem_symbol
  | symbol name => exact h.2.2

end Operand

/-- What can be read again is written in different ways for different values. -/
lemma injective_of_read {α : Type} {write : α → String} {read : String → Option α}
    (h : ∀ value, read (write value) = some value) : Function.Injective write := by
  intro value value' e
  have found := h value
  rw [e, h value'] at found
  exact (Option.some.inj found).symm

/-- The characters that set the parts of assembly text apart. -/
def separators : List Char := ['=', ';', '@', '(', '\n']

/-- No part of assembly text ends among the characters. -/
def Unbroken (chars : List Char) : Prop :=
  (chars.all fun c => !separators.contains c) = true

/-- A separator is none of the unbroken characters. -/
lemma Unbroken.notMem {chars : List Char} (h : Unbroken chars) {c : Char} (hc : c ∈ separators) :
    c ∉ chars := by
  intro found
  have clear := List.all_eq_true.mp h c found
  simp [hc] at clear

namespace Dest

/-- What stands in front of the computed value in the text of a computation. -/
def front (dest : Dest) : List Char :=
  if dest = .nowhere then [] else dest.mnemonic.toList ++ ['=']

/-- The mnemonic of targets has no separator in it. -/
lemma unbroken (dest : Dest) : Unbroken dest.mnemonic.toList := by
  obtain ⟨a, d, m⟩ := dest
  cases a <;> cases d <;> cases m <;> rfl

/-- Targets can be read off what stands in front of the computed value. -/
lemma front_inj {dest dest' : Dest} (e : dest.front = dest'.front) : dest = dest' := by
  rw [front, front] at e
  split_ifs at e with h h' h'
  · rw [h, h']
  · exact absurd e (by simp)
  · exact absurd e (by simp)
  · have same := String.toList_injective (List.append_cancel_right e)
    exact injective_of_read ofMnemonic?_mnemonic same

/-- The only separator in front of the computed value is an equals sign. -/
lemma eq_of_mem_front {dest : Dest} {c : Char} (hs : c ∈ separators) (h : c ∈ dest.front) :
    c = '=' := by
  rw [front] at h
  split_ifs at h
  · cases h
  · rcases List.mem_append.mp h with h | h
    · exact absurd h (dest.unbroken.notMem hs)
    · exact List.mem_singleton.mp h

/-- What stands in front of the computed value ends with an equals sign, if there is anything. -/
lemma reverse_front (dest : Dest) :
    dest.front.reverse = [] ∨ ∃ tail, dest.front.reverse = '=' :: tail := by
  rw [front]
  split_ifs
  · exact .inl rfl
  · exact .inr ⟨_, List.reverse_concat⟩

end Dest

namespace Jump

/-- What stands behind the computed value in the text of a computation. -/
def behind (jump : Jump) : List Char :=
  if jump = .never then [] else ';' :: jump.mnemonic.toList

/-- The mnemonic of a jump condition has no separator in it. -/
lemma unbroken (jump : Jump) : Unbroken jump.mnemonic.toList := by
  obtain ⟨negative, zero, positive⟩ := jump
  cases negative <;> cases zero <;> cases positive <;> rfl

/-- A jump condition can be read off what stands behind the computed value. -/
lemma behind_inj {jump jump' : Jump} (e : jump.behind = jump'.behind) : jump = jump' := by
  rw [behind, behind] at e
  split_ifs at e with h h' h'
  · rw [h, h']
  · have same := String.toList_injective (List.cons.inj e).2
    exact injective_of_read ofMnemonic?_mnemonic same

/-- The only separator behind the computed value is a semicolon. -/
lemma eq_of_mem_behind {jump : Jump} {c : Char} (hs : c ∈ separators) (h : c ∈ jump.behind) :
    c = ';' := by
  rw [behind] at h
  split_ifs at h
  · cases h
  · rcases List.mem_cons.mp h with h | h
    · exact h
    · exact absurd h (jump.unbroken.notMem hs)

/-- What stands behind the computed value starts with a semicolon, if there is anything. -/
lemma behind_eq (jump : Jump) : jump.behind = [] ∨ ∃ tail, jump.behind = ';' :: tail := by
  rw [behind]
  split_ifs
  · exact .inl rfl
  · exact .inr ⟨_, rfl⟩

end Jump

namespace Comp

/-- The mnemonic of a computed value has no separator in it. -/
lemma unbroken (comp : Comp) : Unbroken comp.mnemonic.toList := by
  cases comp with
  | input y | not y | neg y | inc y | dec y | add y | sub y | subFrom y | and y | or y =>
    cases y <;> rfl
  | _ => rfl

end Comp

namespace Instruction

/-- A line whose text shows what it is. -/
def Legible : Instruction → Prop
  | .load operand => operand.Legible
  | .label name => '\n' ∉ name.toList
  | .compute .. => True

/-- The text of a computation has three parts. -/
lemma toList_compute (dest : Dest) (comp : Comp) (jump : Jump) :
    (compute dest comp jump).text.toList = dest.front ++ comp.mnemonic.toList ++ jump.behind := by
  rw [text, String.toList_append, String.toList_append, Dest.front, Jump.behind]
  split_ifs <;> simp

/-- No semicolon stands in front of the jump condition. -/
lemma semicolon_notMem_front (dest : Dest) (comp : Comp) :
    ';' ∉ dest.front ++ comp.mnemonic.toList := by
  intro found
  rcases List.mem_append.mp found with found | found
  · exact absurd (Dest.eq_of_mem_front (by decide) found) (by decide)
  · exact comp.unbroken.notMem (by decide) found

/-- The fields of a computation can be read off its text. -/
lemma compute_inj {dest dest' : Dest} {comp comp' : Comp} {jump jump' : Jump}
    (e : (compute dest comp jump).text = (compute dest' comp' jump').text) :
    compute dest comp jump = compute dest' comp' jump' := by
  have e := congrArg String.toList e
  rw [toList_compute, toList_compute] at e
  obtain ⟨fronts, jumps⟩ := append_inj_of_notMem (semicolon_notMem_front dest comp)
    (semicolon_notMem_front dest' comp') jump.behind_eq jump'.behind_eq e
  -- The targets end with the last `=`, so they are found from the other end.
  have fronts := congrArg List.reverse fronts
  rw [List.reverse_append, List.reverse_append] at fronts
  have unassigned (comp : Comp) : '=' ∉ comp.mnemonic.toList.reverse := by
    rw [List.mem_reverse]
    exact comp.unbroken.notMem (by decide)
  obtain ⟨comps, dests⟩ := append_inj_of_notMem (unassigned comp) (unassigned comp')
    dest.reverse_front dest'.reverse_front fronts
  have comps := String.toList_injective (List.reverse_injective comps)
  rw [Dest.front_inj (List.reverse_injective dests), Jump.behind_inj jumps,
    injective_of_read Comp.ofMnemonic?_mnemonic comps]

/-- The only separators in the text of a computation are the equals sign and the semicolon. -/
lemma eq_of_mem_compute {dest : Dest} {comp : Comp} {jump : Jump} {c : Char} (hs : c ∈ separators)
    (h : c ∈ (compute dest comp jump).text.toList) : c = '=' ∨ c = ';' := by
  rw [toList_compute, List.mem_append, List.mem_append] at h
  rcases h with (h | h) | h
  · exact .inl (Dest.eq_of_mem_front hs h)
  · exact absurd h (comp.unbroken.notMem hs)
  · exact .inr (Jump.eq_of_mem_behind hs h)

/-- The character that shows that a line loads or declares something. -/
def opener? : Instruction → Option Char
  | .load _ => some '@'
  | .label _ => some '('
  | .compute .. => none

/-- The first character of a line shows whether it loads, declares or computes something. -/
lemma opener?_eq (instruction : Instruction) :
    instruction.opener? = instruction.text.toList.head?.filter fun c => c = '@' || c = '(' := by
  cases instruction with
  | load operand =>
    rw [text, String.toList_append]
    rfl
  | label name =>
    rw [text, String.toList_append, String.toList_append]
    rfl
  | compute dest comp jump =>
    symm
    apply Option.filter_eq_none_iff.mpr
    intro c hc opens
    have found := List.mem_of_mem_head? hc
    simp only [Bool.or_eq_true, decide_eq_true_eq] at opens
    rcases opens with rfl | rfl
    · exact absurd (eq_of_mem_compute (by decide) found) (by decide)
    · exact absurd (eq_of_mem_compute (by decide) found) (by decide)

variable {instruction instruction' : Instruction}

/-- The texts of lines tell them apart. -/
lemma text_inj (h : instruction.Legible) (h' : instruction'.Legible)
    (e : instruction.text = instruction'.text) : instruction = instruction' := by
  have openers : instruction.opener? = instruction'.opener? := by
    rw [opener?_eq, opener?_eq, e]
  cases instruction with
  | load operand =>
    cases instruction' with
    | load operand' =>
      have e := congrArg String.toList e
      rw [text, text, String.toList_append, String.toList_append] at e
      have e := String.toList_injective (List.append_cancel_left e)
      exact congrArg _ (Operand.text_inj h h' e)
    | _ => exact absurd openers (by simp [opener?])
  | label name =>
    cases instruction' with
    | label name' =>
      have e := congrArg String.toList e
      simp only [text, String.toList_append] at e
      have e := List.append_cancel_left (List.append_cancel_right e)
      exact congrArg _ (String.toList_injective e)
    | _ => exact absurd openers (by simp [opener?])
  | compute dest comp jump =>
    cases instruction' with
    | compute dest' comp' jump' => exact compute_inj e
    | _ => exact absurd openers (by simp [opener?])

/-- The text of a line is one line. -/
lemma newline_notMem_text (h : instruction.Legible) : '\n' ∉ instruction.text.toList := by
  intro found
  cases instruction with
  | load operand =>
    rw [text, String.toList_append] at found
    rcases List.mem_append.mp found with found | found
    · exact absurd found (by decide)
    · exact operand.newline_notMem_text h found
  | label name =>
    rw [text, String.toList_append, String.toList_append, List.mem_append, List.mem_append] at found
    rcases found with (found | found) | found
    · exact absurd found (by decide)
    · exact h found
    · exact absurd found (by decide)
  | compute dest comp jump => exact absurd (eq_of_mem_compute (by decide) found) (by decide)

end Instruction

namespace Code

/-- Code whose text shows what it is. -/
def Legible (code : Code) : Prop :=
  ∀ instruction ∈ code, instruction.Legible

/-- The text of code is made of its lines, each with a newline behind it. -/
lemma text_eq (code : Code) : code.text = String.join (code.lines.map (· ++ "\n")) := by
  rw [text, lines, List.map_map]
  rfl

/-- The first newline in the text of code ends its first line. -/
lemma toList_text_cons (instruction : Instruction) (code : Code) :
    (text (instruction :: code)).toList =
      instruction.text.toList ++ '\n' :: code.text.toList := by
  simp [text_cons, String.toList_append]

/-- The texts of code tell it apart, line by line. -/
lemma text_inj {code code' : Code} (h : code.Legible) (h' : code'.Legible)
    (e : code.text = code'.text) : code = code' := by
  induction code generalizing code' with
  | nil =>
    cases code' with
    | nil => rfl
    | cons instruction' rest' =>
      have e := congrArg String.toList e
      rw [toList_text_cons] at e
      exact absurd e (by simp [text])
  | cons instruction rest ih =>
    cases code' with
    | nil =>
      have e := congrArg String.toList e
      rw [toList_text_cons] at e
      exact absurd e (by simp [text])
    | cons instruction' rest' =>
      obtain ⟨first, others⟩ := List.forall_mem_cons.mp h
      obtain ⟨first', others'⟩ := List.forall_mem_cons.mp h'
      have e := congrArg String.toList e
      rw [toList_text_cons, toList_text_cons] at e
      obtain ⟨lines, tails⟩ := append_cons_inj (Instruction.newline_notMem_text first)
        (Instruction.newline_notMem_text first') e
      rw [Instruction.text_inj first first' (String.toList_injective lines),
        ih others others' (String.toList_injective tails)]

end Code

/-- The operand with a register given by its symbol. -/
def Operand.spelled : Operand → Operand
  | .register cell => .symbol cell.symbol
  | operand => operand

/-- The line with a register given by its symbol. -/
def Instruction.spelled : Instruction → Instruction
  | .load operand => .load operand.spelled
  | instruction => instruction

namespace Code

/-- The code with registers given by their symbols. -/
def spelled (code : Code) : Code :=
  code.map Instruction.spelled

/-- Spelling registers by their symbols does not change the text. -/
lemma text_spelled (code : Code) : code.spelled.text = code.text := by
  have same : ∀ instruction : Instruction, instruction.spelled.text = instruction.text := by
    intro instruction
    cases instruction with
    | load operand => cases operand <;> rfl
    | _ => rfl
  simp [text, spelled, Function.comp_def, same]

/-- Labels keep their addresses when registers are spelled by their symbols. -/
lemma labelTable_spelled (code : Code) (address : Nat) :
    code.spelled.labelTable address = code.labelTable address := by
  induction code generalizing address with
  | nil => rfl
  | cons instruction rest ih =>
    cases instruction with
    | label name => exact congrArg _ (ih address)
    | load operand => exact ih (address + 1)
    | compute dest comp jump => exact ih (address + 1)

/-- Code keeps its size when registers are spelled by their symbols. -/
lemma size_spelled (code : Code) : code.spelled.size = code.size := by
  rw [size, spelled, List.countP_map]
  congr 1
  funext instruction
  cases instruction <;> rfl

/-- Numbers that do not fit stay where they are when registers are spelled by their symbols. -/
lemma wideNumber?_spelled (code : Code) : code.spelled.wideNumber? = code.wideNumber? := by
  rw [wideNumber?, spelled, List.findSome?_map]
  congr 1
  funext instruction
  cases instruction with
  | load operand => cases operand <;> rfl
  | _ => rfl

end Code

namespace Image

variable {code : Code} {labels : List (String × Nat)} {vars : List String}

/-- The symbol of a register is no variable, whatever labels there are. -/
lemma fixed?_symbol {cell : Register} (h : cell.isLow = true) (labels : List (String × Nat)) :
    fixed? labels cell.symbol = some cell.address := by
  rw [fixed?, Register.predefined?_symbol h]
  rfl

/-- No variable comes in when registers are spelled by their symbols. -/
lemma variablesOf_spelled (low : code.Low) :
    variablesOf labels code.spelled = variablesOf labels code := by
  rw [variablesOf, variablesOf, Code.symbols, Code.symbols, Code.spelled, List.filterMap_map,
    List.filter_filterMap, List.filter_filterMap]
  congr 1
  apply List.filterMap_congr
  intro instruction hi
  cases instruction with
  | load operand =>
    cases operand with
    | register cell =>
      have fixed := fixed?_symbol (low.isLow hi) labels
      simp [Instruction.spelled, Operand.spelled, fixed]
    | _ => rfl
  | _ => rfl

/-- The words of code stay the same when registers are spelled by their symbols. -/
lemma cells_spelled (low : code.Low) : cells labels vars code.spelled = cells labels vars code := by
  rw [cells, cells, Code.spelled, List.filterMap_map]
  apply List.filterMap_congr
  intro instruction hi
  cases instruction with
  | load operand =>
    cases operand with
    | register cell =>
      have fixed := fixed?_symbol (low.isLow hi) labels
      simp [Instruction.spelled, Operand.spelled, operandValue, symbolValue, fixed]
    | _ => rfl
  | _ => rfl

/-- Registers and their symbols load as the same words. -/
lemma ofCode_spelled (low : code.Low) : ofCode code.spelled = ofCode code := by
  have faults : fault? code.spelled = fault? code := by
    rw [fault?, fault?, placedLabels, placedLabels, Code.labelTable_spelled, Code.size_spelled,
      Code.wideNumber?_spelled]
  simp only [ofCode, faults, Code.labelTable_spelled, variablesOf_spelled low, cells_spelled low]

end Image

/-- A legal name stands on one line. -/
lemma Name.Legal.newline_notMem {name : String} (h : Name.Legal name) : '\n' ∉ name.toList :=
  fun found => absurd (h.chars _ found) (by decide)

/-- The label of a well-formed line's mark goes on without a newline behind the entry of the function. -/
lemma Line.newline_notMem_suffix {inlineMax : UInt16} {returns : Nat} {line : Line} {mark : Mark}
    {defined : List String} (wf : line.command.WellFormed defined)
    (h : mark ∈ line.marks inlineMax returns) : '\n' ∉ mark.suffix := by
  have numbered {scope : Scope} {tag : String} (serial : Nat) (ht : '\n' ∉ tag.toList) :
      '\n' ∉ (Mark.back scope tag serial).suffix := by
    simp only [Mark.suffix, List.mem_cons, List.mem_append, not_or]
    exact ⟨by decide, ht, by decide, fun found => absurd (isDigit_of_mem_repr found) (by decide)⟩
  obtain ⟨scope, command⟩ := line
  cases command with
  | label name =>
    cases List.mem_singleton.mp h
    have wf : Name.Legal name := wf
    simp only [Mark.suffix, List.mem_cons, not_or]
    exact ⟨by decide, wf.newline_notMem⟩
  | function name locals =>
    rcases mem_marks_function h with rfl | rfl
    · exact List.not_mem_nil
    · simp [Mark.suffix]
  | call name arguments =>
    cases List.mem_singleton.mp h
    exact numbered _ (by decide)
  | operate operation =>
    cases operation with
    | compare comparison =>
      cases List.mem_singleton.mp h
      exact numbered _ (by cases comparison <;> decide)
    | _ => cases h
  | _ => cases h

namespace Program

variable {settings : Settings} {program : Program} {compiled : Compiled}

namespace Accepted

variable (accepted : program.Accepted settings)

include accepted

/-- The name of anything that a program knows stands on one line. -/
lemma newline_notMem_name {referent : Referent} (known : program.Knows settings referent) :
    '\n' ∉ referent.name.toList := by
  have proper := accepted.proper_of_knows known
  intro found
  cases referent with
  | reserved text =>
    have all : ∀ text ∈ reservedLabels, '\n' ∉ text.toList := by decide +kernel
    exact all text known found
  | label mark =>
    obtain ⟨line, hl, returns, marked⟩ := Line.exists_of_mem_marksOf known
    rw [Referent.name, Mark.toList_text, Scope.toList_entry, List.mem_append, List.mem_append,
      List.mem_cons] at found
    rcases found with (found | found | found) | found
    · exact proper.1.legal.newline_notMem found
    · exact absurd found (by decide)
    · exact proper.2.1.newline_notMem found
    · exact Line.newline_notMem_suffix (accepted.line_legal hl).2.2 marked found
  | static unit index =>
    have legal : SourceUnit.LegalName unit := proper
    rw [Referent.name, toList_staticSymbol, List.mem_append, List.mem_cons] at found
    rcases found with found | found | found
    · exact legal.legal.newline_notMem found
    · exact absurd found (by decide)
    · exact absurd (isDigit_of_mem_repr found) (by decide)

/-- The code of a program shows what it is. -/
lemma legible_assembly : (program.assembly settings).Legible := by
  intro instruction hi
  cases instruction with
  | load operand =>
    cases operand with
    | constant value => trivial
    | register cell => exact accepted.low_assembly.isLow hi
    | symbol name =>
      obtain ⟨referent, known, rfl⟩ := accepted.exists_known hi
      have proper := accepted.proper_of_knows known
      obtain ⟨c, hc, joint⟩ := Referent.exists_joint proper
      refine ⟨Referent.predefined?_name proper, ⟨c, hc, ?_⟩, accepted.newline_notMem_name known⟩
      rcases joint with rfl | rfl <;> decide
  | label name =>
    obtain ⟨referent, known, -, rfl⟩ := accepted.mem_labels_iff.mp (Code.mem_labels_iff.mpr hi)
    exact accepted.newline_notMem_name known
  | compute dest comp jump => trivial

end Accepted

/-- The text of compiled code tells it from all other compiled code, and spelling registers by their
symbols changes neither the text nor what is loaded. -/
theorem compiled_text_unambiguous (h : compile settings program = .ok compiled) :
    (∀ settings' program' compiled', compile settings' program' = .ok compiled' →
      compiled.code.text = compiled'.code.text → compiled.code = compiled'.code) ∧
    (∀ cell, .load (.register cell) ∈ compiled.code →
      predefined? cell.symbol = some cell.address) ∧
    compiled.code.spelled.text = compiled.code.text ∧
    (compiled.code.size ≤ romSize → ∃ image, Image.ofCode compiled.code = .ok image ∧
      Image.ofCode compiled.code.spelled = .ok image) := by
  have accepted := Accepted.of_compile h
  rw [compile_code h]
  refine ⟨?_, ?_, Code.text_spelled _, ?_⟩
  · intro settings' program' compiled' h'
    rw [compile_code h']
    exact Code.text_inj accepted.legible_assembly (Accepted.of_compile h').legible_assembly
  · exact fun cell hc => Register.predefined?_symbol (accepted.low_assembly.isLow hc)
  · intro fits
    obtain ⟨image, loaded⟩ := accepted.exists_loaded fits
    exact ⟨image, loaded.loads, (Image.ofCode_spelled accepted.low_assembly).trans loaded.loads⟩

/-- A program that uses the last cell of the `temp` segment. -/
def clerk : Program :=
  [⟨"Desk", [.function "run" 0, .push .constant 15, .pop .temp 7, .push .statics 15, .call "run" 1,
    .ret]⟩]

/-- The clerk is compiled to one text whether or not locals are cleared by a loop, so to one code. Its
register `R12` is loaded as the symbol is. -/
theorem clerk_text_unambiguous :
    ∃ compiled compiled' image, compile ⟨"run", 256, 0⟩ clerk = .ok compiled ∧
      compile ⟨"run", 256, 9⟩ clerk = .ok compiled' ∧ compiled.code = compiled'.code ∧
      .load (.register (.temp 7)) ∈ compiled.code ∧ predefined? "R12" = some 12 ∧
      .load (.symbol "R12") ∈ compiled.code.spelled ∧
      Image.ofCode compiled.code = .ok image ∧ Image.ofCode compiled.code.spelled = .ok image := by
  have outcome : ((compile ⟨"run", 256, 0⟩ clerk).toOption.map fun compiled =>
      (decide (.load (.register (.temp 7)) ∈ compiled.code), decide (compiled.code.size ≤ romSize))) =
        some (true, true) := by
    decide +kernel
  have texts : ((compile ⟨"run", 256, 0⟩ clerk).toOption.map fun compiled => compiled.code.lines) =
      (compile ⟨"run", 256, 9⟩ clerk).toOption.map fun compiled => compiled.code.lines := by
    decide +kernel
  obtain ⟨compiled, h, facts⟩ := Option.map_eq_some_iff.mp outcome
  obtain ⟨loads, fits⟩ := Prod.mk.inj facts
  rw [h] at texts
  obtain ⟨compiled', h', lines⟩ := Option.map_eq_some_iff.mp texts.symm
  have text : compiled.code.text = compiled'.code.text := by
    rw [Code.text_eq, Code.text_eq, lines]
  rw [toOption_eq_some_iff] at h h'
  obtain ⟨same, named, -, image⟩ := compiled_text_unambiguous h
  obtain ⟨image, loaded, spelled⟩ := image (of_decide_eq_true fits)
  have loads := of_decide_eq_true loads
  exact ⟨compiled, compiled', image, h, h', same _ _ _ h' text, loads, named _ loads,
    List.mem_map.mpr ⟨_, loads, rfl⟩, loaded, spelled⟩

end Program

end HackVM
