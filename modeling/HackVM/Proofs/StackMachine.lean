import Mathlib
import HackVM.Proofs.Calls
import HackVM.Proofs.Comparison
import HackVM.Proofs.Stack

/-!
# The stack machine

The machine that programs are written for: a memory and a position among the commands. Of the code it
knows only what shows in memory, the address that a call pushes and the cells that loading gave the
static variables. A command has no next state if the stack or a cell that it needs does not lie in
memory, or if it reads one of the scratch cells, which belong to the code.
-/

namespace HackVM

namespace Operation

/-- How many values an operation takes off the stack. -/
def arity : Operation → Nat
  | .neg | .not => 1
  | _ => 2

/-- The value that an operation pushes, from the topmost value `y` and the one below it. -/
def value (operation : Operation) (x y : Word) : Word :=
  match operation with
  | .add => x + y
  | .sub => x - y
  | .neg => -y
  | .compare comparison => comparison.verdict x y
  | .and => x &&& y
  | .or => x ||| y
  | .not => ~~~y

end Operation

/-- Where execution stands. -/
inductive Position where
  /-- At the call of the first function. -/
  | start
  /-- In front of a line of the program. -/
  | line (index : Nat)
  /-- In the loop that a program ends in. -/
  | halt
deriving DecidableEq, Repr

/-- A program on the stack machine. The settings say where it starts, and the image where its static
variables lie. -/
structure StackMachine where
  settings : Settings
  program : Program
  image : Image
deriving DecidableEq, Repr

namespace StackMachine

/-- The memory and the position. -/
structure State where
  ram : Memory
  position : Position
deriving DecidableEq, Repr

/-- The cells that the code of a command may change besides. -/
def scratch : List Nat := [13, 14, 15]

/-- The stack holds a number of values above the registers and has room for a number of values. -/
def StackFits (ram : Memory) (taken given : Nat) : Prop :=
  16 + taken ≤ (peek ram 0).toNat ∧ (peek ram 0).toNat + given ≤ ramSize

instance (ram : Memory) (taken given : Nat) : Decidable (StackFits ram taken given) :=
  inferInstanceAs (Decidable (_ ∧ _))

/-- The frame of the function at hand and the first of its arguments lie above the registers. -/
def FrameFits (ram : Memory) : Prop :=
  (16 + 5 ≤ (peek ram 1).toNat ∧ (peek ram 1).toNat ≤ ramSize) ∧
    16 ≤ (peek ram 2).toNat ∧ (peek ram 2).toNat < ramSize

instance (ram : Memory) : Decidable (FrameFits ram) :=
  inferInstanceAs (Decidable ((_ ∧ _) ∧ _ ∧ _))

/-- The address at which the code of a position starts. In front of the first call four instructions
set the stack pointer, and behind it the program ends. -/
def address (machine : StackMachine) : Position → Nat
  | .start => 4
  | .line index => machine.program.address machine.settings index
  | .halt => 4 + (Code.callSequence (machine.program.entryLabel machine.settings) 0
      Bootstrap.returnLabel).size

/-- All positions, those at the ends of a run first. -/
def positions (machine : StackMachine) : List Position :=
  .start :: .halt :: (List.range (machine.program.lines.length + 1)).map .line

/-- The position that a return address stands for. -/
def resume (machine : StackMachine) (back : Word) : Option Position :=
  machine.positions.find? fun position => machine.address position = back.toNat

/-- Calls a function, to return to a position. -/
def call (machine : StackMachine) (ram : Memory) (name : String) (arguments : UInt16)
    (back : Position) : Option State :=
  if StackFits ram 0 5 then
    some ⟨Frame.build ram (peek ram 0).toNat (word (machine.address back)) (word arguments.toNat),
      .line (machine.program.functionIndex name)⟩
  else none

/-- Executes the line at an index. -/
def execute (machine : StackMachine) (index : Nat) (line : Line) (ram : Memory) : Option State :=
  let top := (peek ram 0).toNat
  let next := Position.line (index + 1)
  match line.command with
  | .push segment offset =>
    match segment.resolve line.scope.unit offset with
    | .error _ => none
    | .ok location =>
      if StackFits ram 0 1 ∧
          ∀ cell ∈ location.cell? machine.image ram, cell < ramSize ∧ cell ∉ scratch then
        some ⟨pushed ram top (location.content machine.image ram), next⟩
      else none
  | .pop segment offset =>
    match segment.resolve line.scope.unit offset with
    | .error _ => none
    | .ok location =>
      match location.cell? machine.image ram with
      | none => none
      | some cell =>
        if StackFits ram 1 0 ∧ cell < ramSize then some ⟨popped ram (top - 1) cell, next⟩ else none
  | .operate operation =>
    if StackFits ram operation.arity 0 then
      some ⟨pushed ram (top - operation.arity)
        (operation.value (peek ram (top - 2)) (peek ram (top - 1))), next⟩
    else none
  | .label _ => some ⟨ram, next⟩
  | .goto name => some ⟨ram, .line (machine.program.labelIndex line.scope name)⟩
  | .ifGoto name =>
    if StackFits ram 1 0 then
      some ⟨poke ram 0 (word (top - 1)),
        if peek ram (top - 1) ≠ 0 then .line (machine.program.labelIndex line.scope name) else next⟩
    else none
  | .function _ locals =>
    if StackFits ram 0 locals.toNat then some ⟨cleared ram top locals.toNat, next⟩ else none
  | .call name arguments => machine.call ram name arguments next
  | .ret =>
    let frame := (peek ram 1).toNat - 5
    if StackFits ram 1 0 ∧ FrameFits ram then
      (machine.resume (peek ram frame)).map fun position =>
        ⟨Frame.unwind ram frame (peek ram 2).toNat (top - 1), position⟩
    else none

/-- The state behind the next command. Behind the last position there is none, and a program that came
to its end stays there. -/
def step (machine : StackMachine) (state : State) : Option State :=
  match state.position with
  | .start => machine.call state.ram machine.settings.entryPoint 0 .halt
  | .line index =>
    match machine.program.lines[index]? with
    | none => none
    | some line => machine.execute index line state.ram
  | .halt => some state

/-- The machine when it is switched on: all cells are zero but the stack pointer. -/
def initial (machine : StackMachine) : State :=
  ⟨poke Computer.initial.ram 0 (word machine.settings.stackBase.toNat), .start⟩

/-- The state behind a number of commands. -/
def run (machine : StackMachine) : (count : Nat) → Option State
  | 0 => some machine.initial
  | count + 1 => (machine.run count).bind machine.step

variable {machine : StackMachine}

/-- A return goes to a position with the return address. -/
lemma address_of_resume {back : Word} {position : Position}
    (h : machine.resume back = some position) : machine.address position = back.toNat := by
  have found := List.find?_some h
  exact of_decide_eq_true found

/-- Every call has code. -/
lemma size_callSequence_pos (target : String) (arguments : UInt16) (label : String) :
    0 < (Code.callSequence target arguments label).size := by
  have jump : (Code.goto (Routine.entry .call)).size = 2 := rfl
  simp only [Code.callSequence, Code.size_append]
  omega

/-- The call of the bootstrap and the end of a program come before the first line. -/
lemma address_lt_line (machine : StackMachine) (index : Nat) :
    machine.address .start < machine.address (.line index) ∧
      machine.address .halt < machine.address (.line index) := by
  have bootstrap : (Bootstrap.code machine.settings.stackBase
      (machine.program.entryLabel machine.settings)).size = machine.address .halt + 2 := rfl
  have start : machine.address .start < machine.address .halt :=
    Nat.lt_add_of_pos_right (size_callSequence_pos _ _ _)
  have line : machine.address .halt + 2 ≤ machine.address (.line index) := by
    rw [← bootstrap, address, Program.address, Program.preamble, Code.size_append]
    omega
  omega

/-- Returns go behind their calls: the address that a call pushed stands for the next line, and that of
the first call for the end of the program. -/
structure ReturnsBehindCalls (machine : StackMachine) : Prop where
  first : machine.resume (word (machine.address .halt)) = some .halt
  line : ∀ {index : Nat} {scope : Scope} {name : String} {arguments : UInt16},
    machine.program.lines[index]? = some ⟨scope, .call name arguments⟩ →
      machine.resume (word (machine.address (.line (index + 1)))) = some (.line (index + 1))

lemma resume_halt (machine : StackMachine) :
    machine.resume (word (machine.address .halt)) = some .halt := by
  have start : machine.address .start = 4 := rfl
  have halt : machine.address .halt = 14 := rfl
  rw [resume, positions, halt, toNat_word (by decide), List.find?_cons_of_neg (by simp [start]),
    List.find?_cons_of_pos (by simp [halt])]

/-- The address that a call pushed stands for the line behind the call. -/
lemma resume_behind_call
    (loaded : Program.Loaded machine.settings machine.program machine.image) {index : Nat}
    {scope : Scope} {name : String} {arguments : UInt16}
    (line : machine.program.lines[index]? = some ⟨scope, .call name arguments⟩) :
    machine.resume (word (machine.address (.line (index + 1)))) = some (.line (index + 1)) := by
  obtain ⟨label, placed, later⟩ : ∃ label,
      machine.image.Places label (machine.address (.line (index + 1))) ∧
        machine.address (.line index) < machine.address (.line (index + 1)) := by
    have holds := loaded.holds_line line
    have lowers := loaded.lowers_line line
    rw [address, address, Program.address_succ machine.settings line]
    generalize machine.program.lineCode machine.settings index _ = code at holds lowers ⊢
    cases lowers with
    | call =>
      exact ⟨_, holds.places_back, Nat.lt_add_of_pos_right (size_callSequence_pos _ _ _)⟩
  have ends := machine.address_lt_line (index + 1)
  have inside : index < machine.program.lines.length := (List.getElem?_eq_some_iff.mp line).1
  rw [resume, placed.toNat_word, positions, List.find?_cons_of_neg (by simpa using ends.1.ne),
    List.find?_cons_of_neg (by simpa using ends.2.ne), List.find?_map, Option.map_eq_some_iff]
  refine ⟨index + 1, List.find?_range_eq_some.mpr ⟨by simp, by simpa using inside, ?_⟩, rfl⟩
  -- The lines in front start earlier, since the call itself has code.
  intro other ho
  have earlier : machine.address (.line other) ≤ machine.address (.line index) :=
    Program.monotone_address _ _ (by omega)
  simpa using (earlier.trans_lt later).ne

lemma returnsBehindCalls
    (loaded : Program.Loaded machine.settings machine.program machine.image) :
    machine.ReturnsBehindCalls :=
  ⟨machine.resume_halt, resume_behind_call loaded⟩

end StackMachine

end HackVM
