import Mathlib
import HackVM.Code
import HackVM.Machine.Console
import HackVM.Proofs.Loading

/-!
# Execution of code

`Image.exec` runs code line by line without asking where it stands, and `Image.Holds.reaches` says that
the computer does the same once the code stands in its program memory. The idioms are executed here once
and for all, so that longer code is executed idiom by idiom.
-/

namespace HackVM

namespace Register

@[simp]
lemma address_sp : sp.address = 0 := rfl

@[simp]
lemma address_lcl : lcl.address = 1 := rfl

@[simp]
lemma address_arg : arg.address = 2 := rfl

@[simp]
lemma address_this : this.address = 3 := rfl

@[simp]
lemma address_that : that.address = 4 := rfl

@[simp]
lemma address_argumentCount : argumentCount.address = 13 := rfl

@[simp]
lemma address_callTarget : callTarget.address = 14 := rfl

@[simp]
lemma address_returnAddress : returnAddress.address = 13 := rfl

@[simp]
lemma address_frameWalker : frameWalker.address = 14 := rfl

@[simp]
lemma address_compareReturn : compareReturn.address = 15 := rfl

end Register

/-- The second input of the arithmetic unit, when the memory it reads from exists. -/
def Comp.operand (comp : Comp) (ram : Memory) (a : Word) : Word :=
  match comp.source? with
  | none => 0
  | some .a => a
  | some .m => peek ram a.toNat

/-- The value of a compute instruction, when the memory it reads from exists. -/
def Comp.result (comp : Comp) (ram : Memory) (a d : Word) : Word :=
  comp.value d (comp.operand ram a)

/-- An instruction behind which execution always goes on with the next one. -/
def Instruction.fallsThrough : Instruction → Bool
  | .compute _ _ jump => jump == .never
  | _ => true

namespace Image

/-- Executes one line of code; a label does nothing. -/
def perform (image : Image) (computer : Computer) : Instruction → Except Trap Computer
  | .label _ => .ok computer
  | .load operand => computer.execute (.load (image.value operand))
  | .compute dest comp jump => computer.execute (.compute dest comp jump)

/-- Executes code line by line. -/
def exec (image : Image) : Code → Computer → Except Trap Computer
  | [], computer => .ok computer
  | instruction :: rest, computer =>
    match image.perform computer instruction with
    | .error trap => .error trap
    | .ok next => exec image rest next

/-- One state of the computer leads to another with a program in its program memory. -/
def Reaches (image : Image) : Computer → Computer → Prop :=
  Relation.ReflTransGen fun computer next => computer.step image.rom = .ok next

variable {image : Image} {computer next last : Computer} {code : Code} {result : Except Trap Computer}
  {ram : Memory} {a d : Word} {pc : Nat}

/-- An instruction that is carried out is followed by the rest. -/
lemma exec_cons {instruction : Instruction} {rest : Code}
    (h : image.perform computer instruction = .ok next) :
    image.exec (instruction :: rest) computer = image.exec rest next := by
  rw [exec, h]

/-- Code is executed piece by piece. -/
lemma exec_append {first second : Code} (h : image.exec first computer = .ok next) :
    image.exec (first ++ second) computer = image.exec second next := by
  induction first generalizing computer with
  | nil =>
    cases h
    rfl
  | cons instruction rest ih =>
    rw [exec] at h
    cases hp : image.perform computer instruction with
    | error trap =>
      rw [hp] at h
      exact nomatch h
    | ok middle =>
      rw [hp] at h
      rw [List.cons_append, exec_cons hp]
      exact ih h

/-- An instruction without a jump goes on behind itself. -/
lemma pc_of_perform {instruction : Instruction} (falls : instruction.fallsThrough = true)
    (h : image.perform computer instruction = .ok next) :
    next.pc = computer.pc + Code.size [instruction] := by
  cases instruction with
  | label name =>
    cases h
    rfl
  | load operand =>
    cases h
    rfl
  | compute dest comp jump =>
    obtain rfl : jump = .never := by simpa [Instruction.fallsThrough] using falls
    rw [perform, Computer.execute] at h
    split at h
    · exact nomatch h
    · dsimp only at h
      split at h
      · exact nomatch h
      · cases h
        simp [Jump.taken, Jump.never]

/-- The computer executes the instruction that stands at its program counter. -/
lemma Holds.step_head {instruction : Instruction} {rest : Code}
    (holds : image.Holds computer.pc (instruction :: rest)) (proper : Code.size [instruction] = 1)
    (h : image.perform computer instruction = .ok next) : computer.step image.rom = .ok next := by
  cases instruction with
  | label name => exact nomatch proper
  | _ =>
    rw [Computer.step, holds.1]
    exact h

/-- An instruction or a label at the program counter takes the computer behind it. -/
lemma Holds.reaches_head {instruction : Instruction} {rest : Code}
    (holds : image.Holds computer.pc (instruction :: rest))
    (h : image.perform computer instruction = .ok next) : image.Reaches computer next := by
  cases instruction with
  | label name =>
    cases h
    exact .refl
  | _ => exact .single (holds.step_head rfl h)

/-- The computer executes the code that stands at its program counter, if no instruction but the last
one jumps. -/
lemma Holds.reaches (holds : image.Holds computer.pc code)
    (straight : code.dropLast.all Instruction.fallsThrough = true)
    (h : image.exec code computer = .ok last) : image.Reaches computer last := by
  induction code generalizing computer with
  | nil =>
    cases h
    exact .refl
  | cons instruction rest ih =>
    rw [exec] at h
    cases hp : image.perform computer instruction with
    | error trap =>
      rw [hp] at h
      exact nomatch h
    | ok next =>
      rw [hp] at h
      refine (holds.reaches_head hp).trans ?_
      cases rest with
      | nil =>
        cases h
        exact .refl
      | cons second rest =>
        rw [List.dropLast_cons_cons, List.all_cons, Bool.and_eq_true] at straight
        -- No instruction but the last may jump, so the next one stands right behind.
        have behind : image.Holds next.pc (second :: rest) := by
          rw [pc_of_perform straight.1 hp]
          rw [← List.singleton_append, holds_append] at holds
          exact holds.2
        exact ih behind straight.2 h

/-- Executing a compute instruction whose memory cell exists. -/
lemma perform_compute {dest : Dest} {comp : Comp} {jump : Jump}
    (h : comp.readsMemory = true ∨ dest.m = true → a.toNat < ramSize) :
    image.perform ⟨ram, a, d, pc⟩ (.compute dest comp jump) =
      .ok ⟨if dest.m then poke ram a.toNat (comp.result ram a d) else ram,
        if dest.a then comp.result ram a d else a, if dest.d then comp.result ram a d else d,
        if jump.taken (comp.result ram a d) then a.toNat else pc + 1⟩ := by
  have input : Computer.input ⟨ram, a, d, pc⟩ comp = .ok (comp.operand ram a) := by
    rw [Computer.input, Comp.operand]
    cases hs : comp.source? with
    | none => rfl
    | some source =>
      cases source with
      | a => rfl
      | m => exact read_eq_peek _ (h (.inl (by simp [Comp.readsMemory, hs])))
  rw [perform, Computer.execute, input]
  dsimp only
  cases hm : dest.m with
  | false => rfl
  | true =>
    rw [if_pos rfl, write_eq_poke _ (h (.inr hm))]
    rfl

/-- A constant is the word of its value. -/
@[simp]
lemma value_constant (image : Image) (value : UInt16) :
    image.value (.constant value) = word value.toNat := by
  simp [Image.value, operandValue, word]

section Idioms

open Code

variable {rest : Code} {dest : Dest} {comp : Comp} {register : Register} {name : String}
  {s cell address : Nat}

/-- Without instructions nothing happens. -/
lemma exec_nil (image : Image) (computer : Computer) : image.exec [] computer = .ok computer := rfl

/-- A register is loaded as its address. -/
lemma exec_address (register : Register) :
    image.exec (Code.address register :: rest) ⟨ram, a, d, pc⟩ =
      image.exec rest ⟨ram, word register.address, d, pc + 1⟩ := rfl

/-- A number is loaded as it is. -/
lemma exec_number (value : UInt16) :
    image.exec (number value :: rest) ⟨ram, a, d, pc⟩ =
      image.exec rest ⟨ram, word value.toNat, d, pc + 1⟩ := by
  rw [← value_constant image]
  rfl

/-- A symbol is loaded as the address that it stands for. -/
lemma exec_symbol (h : image.value (.symbol name) = word address) :
    image.exec (symbol name :: rest) ⟨ram, a, d, pc⟩ =
      image.exec rest ⟨ram, word address, d, pc + 1⟩ := by
  rw [← h]
  rfl

/-- Executing an assignment when the address register holds the number of a cell. -/
lemma exec_assign (h : comp.readsMemory = true ∨ dest.m = true → cell < ramSize) :
    image.exec (assign dest comp :: rest) ⟨ram, word cell, d, pc⟩ =
      image.exec rest ⟨if dest.m then poke ram cell (comp.result ram (word cell) d) else ram,
        if dest.a then comp.result ram (word cell) d else word cell,
        if dest.d then comp.result ram (word cell) d else d, pc + 1⟩ := by
  have exists_cell : comp.readsMemory = true ∨ dest.m = true → (word cell).toNat < ramSize := by
    intro hm
    rw [toNat_word_cell (h hm)]
    exact h hm
  rw [assign, exec_cons (perform_compute exists_cell)]
  cases hm : dest.m with
  | false => simp [Jump.taken, Jump.never]
  | true => simp [Jump.taken, Jump.never, toNat_word_cell (h (.inr hm))]

/-- Executing a jump, which looks at a value and goes to the loaded address. -/
lemma exec_jump {condition : Jump} (h : comp.readsMemory = false) :
    image.exec [jump comp condition] ⟨ram, a, d, pc⟩ =
      .ok ⟨ram, a, d, if condition.taken (comp.result ram a d) then a.toNat else pc + 1⟩ := by
  rw [jump, exec_cons (perform_compute (by simp [h, Dest.nowhere]))]
  rfl

attribute [local simp] exec_nil exec_address exec_number exec_assign Comp.result
  Comp.operand Comp.source? Comp.value Comp.readsMemory Dest.toA Dest.toD Dest.toM Dest.toAM
  Dest.toMD toNat_word_cell zero_lt_ramSize word_add_one word_succ_sub_one

/-- Stepping to the cell below. -/
lemma exec_stepDown :
    image.exec (assign .toA (.dec .a) :: rest) ⟨ram, word (cell + 1), d, pc⟩ =
      image.exec rest ⟨ram, word cell, d, pc + 1⟩ := by
  rw [exec_assign fun h => absurd h (by decide)]
  simp

/-- The content of a register is loaded. -/
lemma exec_loadD (h : register.address < ramSize) :
    image.exec (loadD register) ⟨ram, a, d, pc⟩ =
      .ok ⟨ram, word register.address, peek ram register.address, pc + 2⟩ := by
  simp [loadD, h]

/-- The data register is stored in a register. -/
lemma exec_storeD (h : register.address < ramSize) :
    image.exec (storeD register) ⟨ram, a, d, pc⟩ =
      .ok ⟨poke ram register.address d, word register.address, d, pc + 2⟩ := by
  simp [storeD, h]

/-- Loading a number into the data register. -/
lemma exec_loadNumber (value : UInt16) :
    image.exec [number value, assign .toD (.input .a)] ⟨ram, a, d, pc⟩ =
      .ok ⟨ram, word value.toNat, word value.toNat, pc + 2⟩ := by
  simp

/-- Loading the address of a label into the data register. -/
lemma exec_loadSymbol (placed : image.Places name address) :
    image.exec [symbol name, assign .toD (.input .a)] ⟨ram, a, d, pc⟩ =
      .ok ⟨ram, word address, word address, pc + 2⟩ := by
  simp [exec_symbol placed.value]

/-- Pushing a value: the stack pointer moves up and the cell it pointed to takes the value. -/
lemma exec_pushComp (pure : comp.source? = none) (sp : peek ram 0 = word s) (h : s < ramSize) :
    image.exec (pushComp comp) ⟨ram, a, d, pc⟩ =
      .ok ⟨poke (poke ram 0 (word (s + 1))) s (comp.value d 0), word s, d, pc + 4⟩ := by
  cases comp <;> simp at pure <;> simp [pushComp, sp, h]

/-- Popping a value: the stack pointer moves down and the data register takes the value. -/
lemma exec_popD (sp : peek ram 0 = word (s + 1)) (pos : 0 < s) (h : s < ramSize) :
    image.exec popD ⟨ram, a, d, pc⟩ =
      .ok ⟨poke ram 0 (word s), word s, peek ram s, pc + 3⟩ := by
  simp [popD, sp, h, pos.ne]

/-- The topmost value of the stack is addressed. -/
lemma exec_addressTop (sp : peek ram 0 = word (s + 1)) :
    image.exec addressTop ⟨ram, a, d, pc⟩ = .ok ⟨ram, word s, d, pc + 2⟩ := by
  simp [addressTop, sp]

/-- A jump goes to where the label stands. -/
lemma exec_goto (placed : image.Places name address) :
    image.exec (goto name) ⟨ram, a, d, pc⟩ = .ok ⟨ram, word address, d, address⟩ := by
  rw [goto, exec_symbol placed.value, exec_jump rfl]
  simp [placed.toNat_word, Jump.taken, Jump.always]

/-- A branch goes to where the label stands if its condition holds, and on otherwise. -/
lemma exec_branch (placed : image.Places name address) (condition : Jump) :
    image.exec (branch name condition) ⟨ram, a, d, pc⟩ =
      .ok ⟨ram, word address, d, if condition.taken d then address else pc + 2⟩ := by
  rw [branch, exec_symbol placed.value, exec_jump rfl]
  simp [placed.toNat_word]

/-- A jump through a register goes to the address that it holds. -/
lemma exec_gotoVia (h : register.address < ramSize) :
    image.exec (gotoVia register) ⟨ram, a, d, pc⟩ =
      .ok ⟨ram, peek ram register.address, d, (peek ram register.address).toNat⟩ := by
  rw [gotoVia, exec_address, exec_assign fun _ => h, exec_jump rfl]
  simp [h, Jump.taken, Jump.always]

end Idioms

end Image

namespace Computer

/-- A bounded run goes on where a shorter one ended. -/
lemma run_add {rom : Array Cell} {computer next : Computer} {first begun begun' : Nat} {met : Bool}
    (h : computer.run rom (fun _ => false) first begun = .ok (next, begun', met)) (second : Nat) :
    computer.run rom (fun _ => false) (first + second) begun =
      next.run rom (fun _ => false) second begun' := by
  induction first generalizing computer begun with
  | zero =>
    simp [run] at h
    obtain ⟨rfl, rfl, -⟩ := h
    rw [Nat.zero_add]
  | succ first ih =>
    rw [Nat.succ_add]
    simp only [run, Bool.false_eq_true, if_false] at h ⊢
    cases hs : computer.step rom with
    | error trap =>
      rw [hs] at h
      exact nomatch h
    | ok after =>
      rw [hs] at h
      exact ih h

end Computer

namespace Console

variable {console next : Console} {image : Image} {computer after : Computer}

/-- Executing a number of instructions goes on where executing fewer ended. -/
lemma advance_add {first begun : Nat} (h : console.advance first = .ok (begun, next))
    (second : Nat) : console.advance (first + second) = next.advance second := by
  rw [advance] at h
  cases hr : console.computer.run console.image.rom (fun _ => false) first console.begun with
  | error stop =>
    rw [hr] at h
    exact nomatch h
  | ok result =>
    rw [hr] at h
    cases h
    rw [advance, advance, Computer.run_add hr]

/-- One step of the computer is one step of the console. -/
lemma advance_one (h : computer.step image.rom = .ok after) (begun : Nat) :
    advance ⟨image, computer, begun⟩ 1 = .ok (begun + 1, ⟨image, after, begun + 1⟩) := by
  simp [advance, Computer.run, h]

/-- What the computer reaches is there after a number of instructions. -/
lemma exists_advance (h : image.Reaches computer after) (begun : Nat) :
    ∃ count, advance ⟨image, computer, begun⟩ count =
      .ok (begun + count, ⟨image, after, begun + count⟩) := by
  induction h with
  | refl => exact ⟨0, by simp [advance, Computer.run]⟩
  | tail _ step ih =>
    obtain ⟨count, ih⟩ := ih
    refine ⟨count + 1, ?_⟩
    rw [advance_add ih, advance_one step, Nat.add_assoc]

end Console

end HackVM
