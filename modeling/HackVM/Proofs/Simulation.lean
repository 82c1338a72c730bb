import Mathlib
import HackVM.Proofs.StackMachine

/-!
# Compiled programs run like their commands

A loaded program on the computer does what the stack machine does: each command is matched by the code
of its line, which ends at the next position and may leave something else in the scratch cells only. The
match is kept step by step, hence by whole runs.
-/

namespace HackVM

open StackMachine (scratch StackFits FrameFits)

/-- The computer comes to a program counter with a memory, up to the scratch cells. -/
def Image.Arrives (image : Image) (computer : Computer) (pc : Nat) (ram : Memory) : Prop :=
  ∃ next, image.Reaches computer next ∧ next.pc = pc ∧ AgreeOff scratch next.ram ram

/-- Every shared routine stands at the address of its entry label. -/
def Image.HoldsRoutines (image : Image) : Prop :=
  ∀ routine : Routine, ∃ entry, image.Places routine.entry entry ∧ image.Holds entry routine.code

section Agreement

variable {image : Image} {ram ram' : Memory}

/-- The scratch cells lie among the registers. -/
lemma notMem_scratch {cell : Nat} (h : 16 ≤ cell) : cell ∉ scratch := by
  simp only [scratch, List.mem_cons, List.not_mem_nil, or_false]
  omega

/-- The stack pointer, read in a memory that agrees, and the end of the stack that a command leaves
alone. -/
lemma StackMachine.StackFits.exists_base {taken given : Nat} (fits : StackFits ram taken given)
    (agree : AgreeOff scratch ram' ram) :
    ∃ s, (peek ram 0).toNat = s + taken ∧ peek ram' 0 = word (s + taken) ∧ 16 ≤ s ∧
      s + taken + given ≤ ramSize := by
  obtain ⟨low, high⟩ := fits
  have base : (peek ram 0).toNat - taken + taken = (peek ram 0).toNat := by omega
  refine ⟨(peek ram 0).toNat - taken, base.symm, ?_, by omega, by omega⟩
  rw [base, agree 0 (by decide), word_toNat]

lemma agreeOff_pushed (agree : AgreeOff scratch ram' ram) (s : Nat) (value : Word) :
    AgreeOff scratch (pushed ram' s value) (pushed ram s value) :=
  (agree.poke_both 0 _).poke_both s value

lemma agreeOff_popped (agree : AgreeOff scratch ram' ram) {s : Nat} (low : 16 ≤ s) (cell : Nat) :
    AgreeOff scratch (popped ram' s cell) (popped ram s cell) := by
  rw [popped, popped, agree s (notMem_scratch low)]
  exact (agree.poke_both 0 _).poke_both cell _

lemma agreeOff_cleared (agree : AgreeOff scratch ram' ram) (s count : Nat) :
    AgreeOff scratch (cleared ram' s count) (cleared ram s count) := by
  induction count generalizing ram ram' s with
  | zero => exact agree
  | succ count ih => exact ih (agreeOff_pushed agree s 0) (s + 1)

/-- What the places of a segment are. -/
lemma Segment.location_of_resolve {segment : Segment} {unit : String} {index : UInt16}
    {location : Location} (h : segment.resolve unit index = .ok location) :
    (∃ base ∈ Frame.bases, location = .indirect base index) ∨
      (∃ register, location = .direct register) ∨ location = .immediate index ∨
        location = .variable (staticSymbol unit index) := by
  unfold Segment.resolve at h
  by_cases high : segment.maxIndex < index
  · rw [if_pos high] at h
    exact nomatch h
  · rw [if_neg high] at h
    cases h
    cases segment <;> simp [Frame.bases]

namespace Location

variable {location : Location}

/-- A place of a segment names the same cell in memories that agree. -/
lemma cell?_eq_of_agreeOff {segment : Segment} {unit : String} {index : UInt16}
    (resolved : segment.resolve unit index = .ok location) (agree : AgreeOff scratch ram' ram) :
    location.cell? image ram' = location.cell? image ram := by
  rcases Segment.location_of_resolve resolved with ⟨base, hb, rfl⟩ | ⟨register, rfl⟩ | rfl | rfl
  · have kept : ∀ base ∈ Frame.bases, base.address ∉ scratch := by decide
    rw [cell?, cell?, agree _ (kept base hb)]
  all_goals rfl

/-- A place outside the scratch cells holds the same in memories that agree. -/
lemma content_eq_of_agreeOff (same : location.cell? image ram' = location.cell? image ram)
    (readable : ∀ cell ∈ location.cell? image ram, cell < ramSize ∧ cell ∉ scratch)
    (agree : AgreeOff scratch ram' ram) :
    location.content image ram' = location.content image ram := by
  cases location with
  | immediate value => rfl
  | indirect base offset =>
    have address : (peek ram' base.address + word offset.toNat).toNat =
        (peek ram base.address + word offset.toNat).toNat := Option.some.inj same
    change peek ram' (peek ram' base.address + word offset.toNat).toNat = _
    rw [address]
    exact agree _ (readable _ rfl).2
  | direct register => exact agree _ (readable _ rfl).2
  | _ symbol => exact agree _ (readable _ rfl).2

/-- The code that pushes has no jumps. -/
lemma straight_pushCode (location : Location) :
    location.pushCode.dropLast.all Instruction.fallsThrough = true := by
  cases location with
  | immediate value | indirect base offset =>
    rw [pushCode]
    split_ifs <;> rfl
  | _ => rfl

/-- The code that pops has no jumps. -/
lemma straight_popCode {code : Code} (place : location.popCode? = some code) :
    code.dropLast.all Instruction.fallsThrough = true := by
  cases location with
  | immediate value => exact nomatch place
  | indirect base offset =>
    cases place
    rw [addressCode]
    split_ifs <;> rfl
  | _ =>
    cases place
    rfl

end Location

end Agreement

namespace Image

open Code

variable {image : Image} {ram ram' : Memory} {a d : Word} {pc : Nat} {location : Location}

/-- Pushing, on memories that agree. -/
lemma Holds.arrives_push (holds : image.Holds pc location.pushCode)
    (reachable : location.Reachable image) (agree : AgreeOff scratch ram' ram)
    (same : location.cell? image ram' = location.cell? image ram) (fits : StackFits ram 0 1)
    (readable : ∀ cell ∈ location.cell? image ram, cell < ramSize ∧ cell ∉ scratch) :
    image.Arrives ⟨ram', a, d, pc⟩ (pc + location.pushCode.size)
      (pushed ram (peek ram 0).toNat (location.content image ram)) := by
  obtain ⟨s, top, sp, -, high⟩ := fits.exists_base agree
  obtain ⟨a', d', executed⟩ : ∃ a' d', image.exec location.pushCode ⟨ram', a, d, pc⟩ =
      .ok ⟨_, a', d', _⟩ :=
    exec_pushCode reachable sp (by omega) fun cell hc => (readable cell (same ▸ hc)).1
  rw [Location.content_eq_of_agreeOff same readable agree] at executed
  exact ⟨_, Holds.reaches holds location.straight_pushCode executed, rfl, top ▸ agreeOff_pushed agree _ _⟩

/-- Popping, on memories that agree. -/
lemma Holds.arrives_pop {code : Code} {cell : Nat} (holds : image.Holds pc code)
    (place : location.popCode? = some code) (reachable : location.Reachable image)
    (agree : AgreeOff scratch ram' ram) (named : location.cell? image ram' = some cell)
    (fits : StackFits ram 1 0) (h : cell < ramSize) :
    image.Arrives ⟨ram', a, d, pc⟩ (pc + code.size)
      (popped ram ((peek ram 0).toNat - 1) cell) := by
  obtain ⟨s, top, sp, low, high⟩ := fits.exists_base agree
  obtain ⟨a', d', executed⟩ : ∃ a' d', image.exec code ⟨ram', a, d, pc⟩ = .ok ⟨_, a', d', _⟩ :=
    exec_popCode reachable place sp (by omega) (by omega) named h
  refine ⟨_, Holds.reaches holds (Location.straight_popCode place) executed, rfl, ?_⟩
  rw [top, Nat.add_sub_cancel]
  exact agreeOff_popped agree low cell

/-- An operation on the two topmost values, on memories that agree. -/
lemma Holds.arrives_binary {comp : Comp} {operation : Operation}
    (holds : image.Holds pc (binary comp)) (memory : comp.source? = some .m)
    (value : ∀ x y, comp.value y x = operation.value x y) (agree : AgreeOff scratch ram' ram)
    (fits : StackFits ram 2 0) :
    image.Arrives ⟨ram', a, d, pc⟩ (pc + (binary comp).size) (pushed ram ((peek ram 0).toNat - 2)
      (operation.value (peek ram ((peek ram 0).toNat - 2))
        (peek ram ((peek ram 0).toNat - 1)))) := by
  obtain ⟨s, top, sp, low, high⟩ := fits.exists_base agree
  have executed : image.exec (binary comp) ⟨ram', a, d, pc⟩ = _ :=
    exec_binary memory sp (by omega) (by omega)
  refine ⟨_, Holds.reaches holds rfl executed, rfl, ?_⟩
  rw [top, Nat.add_sub_cancel, Nat.add_sub_assoc (by decide), value,
    agree s (notMem_scratch low), agree (s + 1) (notMem_scratch (by omega))]
  exact agreeOff_pushed agree _ _

/-- An operation on the topmost value, on memories that agree. -/
lemma Holds.arrives_unary {comp : Comp} {operation : Operation}
    (holds : image.Holds pc (unary comp)) (memory : comp.source? = some .m)
    (value : ∀ x y, comp.value d y = operation.value x y) (agree : AgreeOff scratch ram' ram)
    (fits : StackFits ram 1 0) :
    image.Arrives ⟨ram', a, d, pc⟩ (pc + (unary comp).size) (pushed ram ((peek ram 0).toNat - 1)
      (operation.value (peek ram ((peek ram 0).toNat - 2))
        (peek ram ((peek ram 0).toNat - 1)))) := by
  obtain ⟨s, top, sp, low, high⟩ := fits.exists_base agree
  have executed : image.exec (unary comp) ⟨ram', a, d, pc⟩ = _ :=
    exec_unary memory sp (by omega)
  refine ⟨_, Holds.reaches holds rfl executed, rfl, ?_⟩
  -- The stack pointer does not move, and pushing behind a pop writes it back as it was.
  have kept : poke ram' 0 (word (s + 1)) = ram' := poke_of_peek sp zero_lt_ramSize
  rw [value (peek ram ((peek ram 0).toNat - 2)), top, Nat.add_sub_cancel,
    agree s (notMem_scratch low)]
  nth_rewrite 1 [← kept]
  exact agreeOff_pushed agree _ _

/-- Comparing, on memories that agree. -/
lemma Holds.arrives_compare {comparison : Comparison} {label : String}
    (holds : image.Holds pc (callCompare comparison label)) (shared : image.HoldsRoutines)
    (agree : AgreeOff scratch ram' ram) (fits : StackFits ram 2 0) :
    image.Arrives ⟨ram', a, d, pc⟩ (pc + (callCompare comparison label).size)
      (pushed ram ((peek ram 0).toNat - 2) (comparison.verdict
        (peek ram ((peek ram 0).toNat - 2)) (peek ram ((peek ram 0).toNat - 1)))) := by
  obtain ⟨s, top, sp, low, high⟩ := fits.exists_base agree
  obtain ⟨entry, placed, code⟩ := shared (.compare comparison)
  obtain ⟨site, back, -⟩ := holds_append.mp holds
  have handed : image.Reaches ⟨ram', a, d, pc⟩ ⟨ram', word entry, word (pc + 4), entry⟩ := by
    refine Holds.reaches site rfl ?_
    rw [exec_append (exec_loadSymbol back), exec_goto placed]
    rfl
  obtain ⟨a', d', compared⟩ : ∃ a' d', image.Reaches ⟨ram', word entry, word (pc + 4), entry⟩
      ⟨_, a', d', _⟩ := code.reaches_compared sp low (by omega)
  refine ⟨_, handed.trans compared, back.toNat_word, ?_⟩
  rw [top, Nat.add_sub_cancel, Nat.add_sub_assoc (by decide), agree s (notMem_scratch low),
    agree (s + 1) (notMem_scratch (by omega))]
  exact agreeOff_pushed (agree.poke_left (by decide) _) _ _

/-- Every operation, on memories that agree. -/
lemma Holds.arrives_operate {operation : Operation} {site : Site} {ledger : Ledger}
    (holds : image.Holds pc (site.lowerOperation operation ledger).1)
    (shared : image.HoldsRoutines) (agree : AgreeOff scratch ram' ram)
    (fits : StackFits ram operation.arity 0) :
    image.Arrives ⟨ram', a, d, pc⟩ (pc + (site.lowerOperation operation ledger).1.size)
      (pushed ram ((peek ram 0).toNat - operation.arity) (operation.value
        (peek ram ((peek ram 0).toNat - 2)) (peek ram ((peek ram 0).toNat - 1)))) := by
  cases operation with
  | add => exact Holds.arrives_binary holds rfl (fun x y => BitVec.add_comm y x) agree fits
  | sub => exact Holds.arrives_binary holds rfl (fun _ _ => rfl) agree fits
  | and => exact Holds.arrives_binary holds rfl (fun x y => BitVec.and_comm y x) agree fits
  | or => exact Holds.arrives_binary holds rfl (fun x y => BitVec.or_comm y x) agree fits
  | neg | not => exact Holds.arrives_unary holds rfl (fun _ _ => rfl) agree fits
  | compare comparison => exact Holds.arrives_compare holds shared agree fits

/-- A jump on the popped value, on memories that agree. -/
lemma Holds.arrives_ifGoto {label : String} {target : Nat}
    (holds : image.Holds pc (popD ++ branch label .ifNonzero)) (placed : image.Places label target)
    (agree : AgreeOff scratch ram' ram) (fits : StackFits ram 1 0) :
    image.Arrives ⟨ram', a, d, pc⟩
      (if peek ram ((peek ram 0).toNat - 1) ≠ 0 then target
        else pc + (popD ++ branch label .ifNonzero).size)
      (poke ram 0 (word ((peek ram 0).toNat - 1))) := by
  obtain ⟨s, top, sp, low, high⟩ := fits.exists_base agree
  have executed : image.exec (popD ++ branch label .ifNonzero) ⟨ram', a, d, pc⟩ = _ :=
    (exec_append (exec_popD sp (by omega) (by omega))).trans (exec_branch placed _)
  refine ⟨_, Holds.reaches holds rfl executed, ?_, ?_⟩
  · simp only [Jump.taken_ifNonzero_iff]
    rw [top, Nat.add_sub_cancel, agree s (notMem_scratch low)]
    rfl
  · rw [top, Nat.add_sub_cancel]
    exact agree.poke_both 0 _

/-- Calling, on memories that agree. -/
lemma Holds.arrives_call {target label : String} {arguments : UInt16} {entry : Nat}
    (holds : image.Holds pc (callSequence target arguments label)) (shared : image.HoldsRoutines)
    (callee : image.Places target entry) (agree : AgreeOff scratch ram' ram)
    (fits : StackFits ram 0 5) :
    image.Arrives ⟨ram', a, d, pc⟩ entry (Frame.build ram (peek ram 0).toNat
      (word (pc + (callSequence target arguments label).size)) (word arguments.toNat)) := by
  obtain ⟨s, top, sp, low, high⟩ := fits.exists_base agree
  obtain ⟨routine, placed, code⟩ := shared .call
  obtain ⟨a', d', called⟩ : ∃ a' d', image.Reaches ⟨ram', a, d, pc⟩ ⟨_, a', d', entry⟩ :=
    holds.reaches_callee callee placed code sp low (by omega)
  refine ⟨_, called, rfl, ?_⟩
  rw [top]
  refine Frame.agreeOff_build ?_ (by decide) _ _ _
  exact (agree.poke_left (by decide) _).poke_left (by decide) _

/-- Returning, on memories that agree. -/
lemma Holds.arrives_return (holds : image.Holds pc (goto (Routine.entry .return)))
    (shared : image.HoldsRoutines) (agree : AgreeOff scratch ram' ram) (fits : StackFits ram 1 0)
    (frame : FrameFits ram) :
    image.Arrives ⟨ram', a, d, pc⟩ (peek ram ((peek ram 1).toNat - 5)).toNat
      (Frame.unwind ram ((peek ram 1).toNat - 5) (peek ram 2).toNat ((peek ram 0).toNat - 1)) := by
  obtain ⟨s, top, sp, low, high⟩ := fits.exists_base agree
  obtain ⟨routine, placed, code⟩ := shared .return
  obtain ⟨⟨frame_low, frame_high⟩, start_low, start_high⟩ := frame
  have handed : image.Reaches ⟨ram', a, d, pc⟩ _ := Holds.reaches holds rfl (exec_goto placed)
  have lcl : peek ram' 1 = word ((peek ram 1).toNat - 5 + 5) := by
    rw [Nat.sub_add_cancel (by omega), agree 1 (by decide), word_toNat]
  have arg : peek ram' 2 = word (peek ram 2).toNat := by
    rw [agree 2 (by decide), word_toNat]
  obtain ⟨resumed, reached, resumed_pc, same⟩ : ∃ resumed,
      image.Reaches ⟨ram', word routine, d, routine⟩ resumed ∧ _ :=
    code.reaches_back lcl arg sp (by omega) (by omega) start_low start_high low (by omega)
  refine ⟨resumed, handed.trans reached, ?_, ?_⟩
  · rw [resumed_pc, agree _ (notMem_scratch (by omega))]
  · rw [top, Nat.add_sub_cancel]
    have wider : AgreeOff scratch resumed.ram _ := AgreeOff.mono same (by decide)
    refine wider.trans (Frame.agreeOff_unwind agree ?_ (notMem_scratch low) _)
    exact fun offset _ => notMem_scratch (by omega)

end Image

namespace StackMachine

/-- A state of the stack machine and a state of the computer that stands for it. -/
structure Matches (machine : StackMachine) (state : State) (computer : Computer) : Prop where
  pc : computer.pc = machine.address state.position
  ram : AgreeOff scratch computer.ram state.ram

/-- The program of the machine, loaded to its image. -/
abbrev Loaded (machine : StackMachine) : Prop :=
  Program.Loaded machine.settings machine.program machine.image

variable {machine : StackMachine} {state state' : State} {computer : Computer} {ram ram' : Memory}
  {a d : Word} {index : Nat} {line : Line}

/-- The next line starts behind the code of a line. -/
lemma address_line_succ (h : machine.program.lines[index]? = some line) :
    machine.address (.line (index + 1)) = machine.address (.line index) +
      (machine.program.lineCode machine.settings index line).size :=
  Program.address_succ machine.settings h

/-- The static variable that a push or pop uses has the cell that loading gave it. -/
lemma Loaded.reachable (loaded : machine.Loaded)
    (h : machine.program.lines[index]? = some line) {segment : Segment} {offset : UInt16}
    {location : Location} (resolved : segment.resolve line.scope.unit offset = .ok location)
    (used : ∀ symbol, location = .variable symbol →
      symbol ∈ (machine.program.lineCode machine.settings index line).symbols) :
    location.Reachable machine.image := by
  rcases Segment.location_of_resolve resolved with ⟨base, hb, rfl⟩ | ⟨register, rfl⟩ | rfl | rfl
  · have inside : ∀ base ∈ Frame.bases, base.address < ramSize := by decide
    exact inside base hb
  · trivial
  · trivial
  · have legal := (loaded.accepted.line_legal (List.mem_of_getElem? h)).1
    exact loaded.value_static h legal (used _ rfl)

/-- Calling a function of the program leads to the line that starts it. -/
lemma Loaded.arrives_call (loaded : machine.Loaded) {pc : Nat} {name unit label : String}
    {arguments : UInt16} {back : Position}
    (site : machine.image.Holds pc
      (Code.callSequence (Scope.entry ⟨unit, name⟩) arguments label))
    (defined : machine.program.definitions.lookup name = some unit)
    (behind : machine.address back =
      pc + (Code.callSequence (Scope.entry ⟨unit, name⟩) arguments label).size)
    (agree : AgreeOff scratch ram' ram) (h : machine.call ram name arguments back = some state') :
    machine.image.Arrives ⟨ram', a, d, pc⟩ (machine.address state'.position) state'.ram := by
  rw [call, Option.ite_none_right_eq_some] at h
  obtain ⟨fits, h⟩ := h
  obtain rfl := Option.some.inj h
  obtain ⟨locals, started⟩ := loaded.accepted.line_functionIndex defined
  have callee := loaded.places_entry started
  rw [behind]
  exact site.arrives_call loaded.exists_routine callee agree fits

/-- The code of a push pushes the place that the segment names. -/
lemma Loaded.arrives_push (loaded : machine.Loaded) {scope : Scope} {segment : Segment}
    {offset : UInt16} {location : Location}
    (h : machine.program.lines[index]? = some ⟨scope, .push segment offset⟩)
    (resolved : segment.resolve scope.unit offset = .ok location)
    (lowered : machine.program.lineCode machine.settings index ⟨scope, .push segment offset⟩ =
      location.pushCode)
    (agree : AgreeOff scratch ram' ram)
    (executed : machine.execute index ⟨scope, .push segment offset⟩ ram = some state') :
    machine.image.Arrives ⟨ram', a, d, machine.address (.line index)⟩
      (machine.address state'.position) state'.ram := by
  simp only [execute, resolved, Option.ite_none_right_eq_some] at executed
  obtain ⟨⟨fits, readable⟩, executed⟩ := executed
  obtain rfl := Option.some.inj executed
  have holds := loaded.holds_line h
  have reachable := loaded.reachable h resolved fun symbol hs => by
    rw [lowered, hs]
    exact List.mem_cons_self
  rw [lowered] at holds
  rw [address_line_succ h, lowered]
  exact holds.arrives_push reachable agree (Location.cell?_eq_of_agreeOff resolved agree) fits
    readable

/-- The code of a pop pops into the place that the segment names. -/
lemma Loaded.arrives_pop (loaded : machine.Loaded) {scope : Scope} {segment : Segment}
    {offset : UInt16} {location : Location} {code : Code}
    (h : machine.program.lines[index]? = some ⟨scope, .pop segment offset⟩)
    (resolved : segment.resolve scope.unit offset = .ok location)
    (place : location.popCode? = some code)
    (lowered : machine.program.lineCode machine.settings index ⟨scope, .pop segment offset⟩ = code)
    (agree : AgreeOff scratch ram' ram)
    (executed : machine.execute index ⟨scope, .pop segment offset⟩ ram = some state') :
    machine.image.Arrives ⟨ram', a, d, machine.address (.line index)⟩
      (machine.address state'.position) state'.ram := by
  have same : location.cell? machine.image ram' = location.cell? machine.image ram :=
    Location.cell?_eq_of_agreeOff resolved agree
  have holds := loaded.holds_line h
  have reachable := loaded.reachable h resolved fun symbol hs => by
    subst hs
    cases place
    rw [lowered]
    exact List.mem_cons_self
  cases named : location.cell? machine.image ram with
  | none => simp [execute, resolved, named] at executed
  | some cell =>
    simp only [execute, resolved, named, Option.ite_none_right_eq_some] at executed
    obtain ⟨⟨fits, inside⟩, executed⟩ := executed
    obtain rfl := Option.some.inj executed
    rw [lowered] at holds
    rw [address_line_succ h, lowered]
    exact holds.arrives_pop place reachable agree (same.trans named) fits inside

/-- The code of a line does what its command says. -/
lemma Loaded.arrives_line (loaded : machine.Loaded)
    (h : machine.program.lines[index]? = some line) (agree : AgreeOff scratch ram' ram)
    (executed : machine.execute index line ram = some state') :
    machine.image.Arrives ⟨ram', a, d, machine.address (.line index)⟩
      (machine.address state'.position) state'.ram := by
  have holds := loaded.holds_line h
  have lowers := loaded.lowers_line h
  have next := address_line_succ h
  obtain ⟨scope, command⟩ := line
  generalize lowered : machine.program.lineCode machine.settings index _ = code
    at holds lowers next
  cases lowers with
  | push resolved => exact loaded.arrives_push h resolved lowered agree executed
  | pop resolved place => exact loaded.arrives_pop h resolved place lowered agree executed
  | operate operation =>
    obtain ⟨fits, executed⟩ := Option.ite_none_right_eq_some.mp executed
    obtain rfl := Option.some.inj executed
    rw [next]
    exact holds.arrives_operate loaded.exists_routine agree fits
  | label =>
    -- A label has no code, so the computer is there already.
    obtain rfl := Option.some.inj executed
    have same : machine.address (.line (index + 1)) = machine.address (.line index) := by
      simpa using next
    exact ⟨_, .refl, same.symm, agree⟩
  | goto =>
    obtain rfl := Option.some.inj executed
    have declared := loaded.accepted.line_labelIndex (List.mem_of_getElem? h) rfl
    have reached : machine.image.Reaches ⟨ram', a, d, _⟩ _ :=
      Image.Holds.reaches holds rfl (Image.exec_goto (loaded.places_label declared))
    exact ⟨_, reached, rfl, agree⟩
  | ifGoto =>
    obtain ⟨fits, executed⟩ := Option.ite_none_right_eq_some.mp executed
    obtain rfl := Option.some.inj executed
    have declared := loaded.accepted.line_labelIndex (List.mem_of_getElem? h) rfl
    have arrived := holds.arrives_ifGoto (a := a) (d := d) (loaded.places_label declared) agree fits
    dsimp only
    rw [apply_ite machine.address, next]
    exact arrived
  | function few =>
    obtain ⟨fits, executed⟩ := Option.ite_none_right_eq_some.mp executed
    obtain rfl := Option.some.inj executed
    obtain ⟨s, top, sp, low, high⟩ := fits.exists_base agree
    obtain ⟨a', d', reached⟩ : ∃ a' d', machine.image.Reaches ⟨ram', a, d, _⟩ ⟨_, a', d', _⟩ :=
      holds.2.reaches_prologue few sp (by omega) (by omega)
    refine ⟨_, reached, next.symm, ?_⟩
    exact top ▸ agreeOff_cleared agree _ _
  | call fits defined => exact loaded.arrives_call holds defined next agree executed
  | ret =>
    obtain ⟨⟨fits, frame⟩, executed⟩ := Option.ite_none_right_eq_some.mp executed
    obtain ⟨position, resumed, rfl⟩ := Option.map_eq_some_iff.mp executed
    rw [address_of_resume resumed]
    exact holds.arrives_return loaded.exists_routine agree fits frame

/-- The computer first sets the stack pointer. -/
lemma Loaded.arrives_start (loaded : machine.Loaded) :
    machine.image.Arrives .initial (machine.address .start) machine.initial.ram := by
  have holds := loaded.holds_bootstrap
  rw [Bootstrap.code, List.append_assoc, List.append_assoc, Image.holds_append] at holds
  have set : ∀ (ram : Memory) (a d : Word), machine.image.Reaches ⟨ram, a, d, 0⟩
      ⟨poke ram 0 (word machine.settings.stackBase.toNat), word 0,
        word machine.settings.stackBase.toNat, 4⟩ := by
    intro ram a d
    refine Image.Holds.reaches holds.1 rfl ?_
    rw [Image.exec_append (Image.exec_loadNumber _), Image.exec_storeD (by decide)]
    rfl
  exact ⟨_, set _ 0 0, rfl, AgreeOff.refl _ _⟩

/-- Behind the first call the computer turns in a loop of two instructions. -/
lemma Loaded.advance_halt (loaded : machine.Loaded) (ram : Memory) (a d : Word) (begun : Nat) :
    Console.advance ⟨machine.image, ⟨ram, a, d, machine.address .halt⟩, begun⟩ 2 =
      .ok (begun + 2, ⟨machine.image,
        ⟨ram, word (machine.address .halt), d, machine.address .halt⟩, begun + 2⟩) := by
  have loop : machine.image.Holds (machine.address .halt)
      (.label Bootstrap.halt :: Code.goto Bootstrap.halt) := by
    have holds := loaded.holds_bootstrap
    rw [Bootstrap.code, List.append_assoc, Image.holds_append] at holds
    exact holds.2
  obtain ⟨placed, turn⟩ := loop
  have load : Computer.step machine.image.rom ⟨ram, a, d, machine.address .halt⟩ =
      .ok ⟨ram, word (machine.address .halt), d, machine.address .halt + 1⟩ := by
    rw [← placed.value]
    exact Image.Holds.step_head turn rfl rfl
  have jump : Computer.step machine.image.rom
      ⟨ram, word (machine.address .halt), d, machine.address .halt + 1⟩ =
      .ok ⟨ram, word (machine.address .halt), d, machine.address .halt⟩ := by
    refine Image.Holds.step_head turn.2 rfl ?_
    rw [Code.jump, Image.perform_compute (by simp [Comp.readsMemory, Comp.source?, Dest.nowhere])]
    simp [Dest.nowhere, Comp.result, Comp.value, Jump.taken, Jump.always, placed.toNat_word]
  exact (Console.advance_add (Console.advance_one load begun) 1).trans
    (Console.advance_one jump _)

/-- Each step of the stack machine is matched by the computer. -/
theorem Matches.arrives_step (matched : machine.Matches state computer) (loaded : machine.Loaded)
    (h : machine.step state = some state') :
    machine.image.Arrives computer (machine.address state'.position) state'.ram := by
  obtain ⟨ram, position⟩ := state
  obtain ⟨ram', a, d, pc⟩ := computer
  obtain ⟨rfl, agree⟩ := matched
  cases position with
  | start =>
    obtain ⟨unit, defined, site⟩ := Program.CallSite.bootstrap.holds loaded
    exact loaded.arrives_call site defined rfl agree h
  | line index =>
    rw [step] at h
    cases hl : machine.program.lines[index]? with
    | none =>
      simp only [hl] at h
      exact nomatch h
    | some line =>
      simp only [hl] at h
      exact loaded.arrives_line hl agree h
  | halt =>
    obtain rfl := Option.some.inj h
    exact ⟨_, .refl, rfl, agree⟩

/-- After a number of instructions the computer stands for the state behind a number of commands. -/
def InStep (machine : StackMachine) (count time : Nat) : Prop :=
  ∀ state, machine.run count = some state →
    ∃ computer, (Console.start machine.image).advance time =
      .ok (time, ⟨machine.image, computer, time⟩) ∧ machine.Matches state computer

/-- The computer gets to the first state. -/
lemma Loaded.exists_inStep (loaded : machine.Loaded) : ∃ time, machine.InStep 0 time := by
  obtain ⟨computer, reached, pc, agree⟩ := loaded.arrives_start
  obtain ⟨time, advanced⟩ := Console.exists_advance reached 0
  rw [Nat.zero_add] at advanced
  refine ⟨time, fun state h => ?_⟩
  obtain rfl := Option.some.inj h
  exact ⟨computer, advanced, pc, agree⟩

/-- From each state the computer gets to the next, and it turns in its loop once the program ended. -/
lemma InStep.exists_next {count time : Nat} (inStep : machine.InStep count time)
    (loaded : machine.Loaded) :
    ∃ time', time ≤ time' ∧ machine.InStep (count + 1) time' ∧
      ∀ state, machine.run count = some state → state.position = .halt → time' = time + 2 := by
  cases h : machine.run count with
  -- Where the machine has no state, nothing is asked of the computer.
  | none => exact ⟨time, le_rfl, by simp [InStep, run, h], by simp⟩
  | some state =>
    obtain ⟨⟨ram', a, d, pc⟩, advanced, matched⟩ := inStep state h
    have next : machine.run (count + 1) = machine.step state := by rw [run, h, Option.bind_some]
    by_cases halted : state.position = .halt
    · obtain rfl : pc = machine.address .halt := halted ▸ matched.pc
      refine ⟨time + 2, Nat.le_add_right _ _, fun state' h' => ?_, by simp⟩
      obtain rfl : state = state' := by simpa [next, step, halted] using h'
      refine ⟨_, (Console.advance_add advanced 2).trans (loaded.advance_halt _ _ _ _), ?_⟩
      exact ⟨halted ▸ rfl, matched.ram⟩
    · cases hs : machine.step state with
      | none => exact ⟨time, le_rfl, by simp [InStep, next, hs], by simp [halted]⟩
      | some state' =>
        obtain ⟨computer', reached, pc', agree⟩ := matched.arrives_step loaded hs
        obtain ⟨more, advanced'⟩ := Console.exists_advance reached time
        refine ⟨time + more, Nat.le_add_right _ _, fun state'' h' => ?_, by simp [halted]⟩
        obtain rfl : state' = state'' := by simpa [next, hs] using h'
        exact ⟨computer', (Console.advance_add advanced more).trans advanced', pc', agree⟩

/-- The computer is in step with the stack machine for good. -/
lemma Loaded.exists_times (loaded : machine.Loaded) :
    ∃ times : Nat → Nat, Monotone times ∧ ∀ count, machine.InStep count (times count) ∧
      ∀ state, machine.run count = some state → state.position = .halt →
        times (count + 1) = times count + 2 := by
  obtain ⟨first, inStep⟩ := loaded.exists_inStep
  have exists_next : ∀ count time, machine.InStep count time → ∃ time', time ≤ time' ∧
      machine.InStep (count + 1) time' ∧
        ∀ state, machine.run count = some state → state.position = .halt → time' = time + 2 :=
    fun count time h => h.exists_next loaded
  -- The times are chosen one after the other, each from where the last one left the computer.
  choose! next later inStep_next halts using exists_next
  let times : Nat → Nat := Nat.rec first next
  have always : ∀ count, machine.InStep count (times count) := by
    intro count
    induction count with
    | zero => exact inStep
    | succ count ih => exact inStep_next count _ ih
  exact ⟨times, monotone_nat_of_le_succ fun count => later count _ (always count),
    fun count => ⟨always count, halts count _ (always count)⟩⟩

/-- The first command, the call of the first function, has room on the stack. -/
lemma exists_run_one (low : 256 ≤ machine.settings.stackBase)
    (high : machine.settings.stackBase.toNat + 5 ≤ ramSize) :
    ∃ state, machine.run 1 = some state := by
  have base : (peek machine.initial.ram 0).toNat = machine.settings.stackBase.toNat := by
    rw [initial, peek_poke_self zero_lt_ramSize, toNat_word_cell (by omega)]
  have fits : StackFits machine.initial.ram 0 5 := by
    have := UInt16.le_iff_toNat_le.mp low
    rw [StackFits, base]
    exact ⟨le_trans (by decide) this, high⟩
  have called : machine.step machine.initial =
      machine.call machine.initial.ram machine.settings.entryPoint 0 .halt := by
    simp only [step, initial]
  rw [run, run, Option.bind_some, called, call, if_pos fits]
  exact ⟨_, rfl⟩

end StackMachine

namespace Program

/-- A compiled program whose code fits program memory is loaded, and the computer follows the stack
machine through every run: when the machine has executed a number of commands, the computer stands, at a
time of its own, at the position that comes next with the same memory except for the scratch cells. Once
the program ended, the computer turns in a loop of two instructions. The stack machine itself does start,
and its returns go behind their calls. -/
theorem compiled_run_in_step {settings : Settings} {program : Program} {compiled : Compiled}
    (h : compile settings program = .ok compiled) (low : 256 ≤ settings.stackBase)
    (high : settings.stackBase.toNat + 5 ≤ ramSize) (fits : compiled.code.size ≤ romSize) :
    ∃ image, Image.ofCode compiled.code = .ok image ∧
      let machine : StackMachine := ⟨settings, program, image⟩
      machine.ReturnsBehindCalls ∧ (∃ state, machine.run 1 = some state) ∧
        ∃ times : Nat → Nat, Monotone times ∧
          ∀ count state, machine.run count = some state →
            (∃ computer, (Console.start image).advance (times count) =
              .ok (times count, ⟨image, computer, times count⟩) ∧ machine.Matches state computer) ∧
            (state.position = .halt → times (count + 1) = times count + 2) := by
  have code := compile_code h
  obtain ⟨image, loaded⟩ := (Accepted.of_compile h).exists_loaded (code ▸ fits)
  have onMachine : StackMachine.Loaded ⟨settings, program, image⟩ := loaded
  obtain ⟨times, later, inStep⟩ := onMachine.exists_times
  refine ⟨image, code ▸ loaded.loads, StackMachine.returnsBehindCalls onMachine,
    StackMachine.exists_run_one low high, times, later, ?_⟩
  intro count state hs
  exact ⟨(inStep count).1 state hs, (inStep count).2 state hs⟩

/-- A program that adds up numbers in a loop, keeps the sum in a static variable and compares it. -/
def summation : Program :=
  [⟨"Main", [.function "main" 0, .push .constant 2, .call "sum" 1, .pop .statics 0,
      .push .statics 0, .push .constant 3, .operate (.compare .eq), .ret]⟩,
    ⟨"Sum", [.function "sum" 1, .label "LOOP", .push .locals 0, .push .arguments 0, .operate .add,
      .pop .locals 0, .push .arguments 0, .push .constant 1, .operate .sub, .pop .arguments 0,
      .push .arguments 0, .ifGoto "LOOP", .push .locals 0, .ret]⟩]

/-- The sum comes to its end after 34 commands, and at some time the computer is there too and holds the
answer of the comparison where the stack started. -/
theorem summation_in_step :
    ∃ compiled image, compile ⟨"main", 256, 0⟩ summation = .ok compiled ∧
      compiled.code.size ≤ romSize ∧ Image.ofCode compiled.code = .ok image ∧
      let machine : StackMachine := ⟨⟨"main", 256, 0⟩, summation, image⟩
      ∃ state, machine.run 34 = some state ∧ state.position = .halt ∧
        ∃ time computer,
          (Console.start image).advance time = .ok (time, ⟨image, computer, time⟩) ∧
            computer.pc = machine.address .halt ∧ peek computer.ram 256 = -1 := by
  have outcome : ((compile ⟨"main", 256, 0⟩ summation).toOption.bind fun compiled =>
      (Image.ofCode compiled.code).toOption.bind fun image =>
        (StackMachine.run ⟨⟨"main", 256, 0⟩, summation, image⟩ 34).map fun state =>
          (decide (compiled.code.size ≤ romSize), state.position, peek state.ram 256)) =
      some (true, .halt, -1) := by
    decide +kernel
  obtain ⟨compiled, h, outcome⟩ := Option.bind_eq_some_iff.mp outcome
  obtain ⟨image, loads, outcome⟩ := Option.bind_eq_some_iff.mp outcome
  obtain ⟨state, ran, outcome⟩ := Option.map_eq_some_iff.mp outcome
  obtain ⟨fits, halted, answer⟩ : decide (compiled.code.size ≤ romSize) = true ∧
      state.position = .halt ∧ peek state.ram 256 = -1 := by simpa using outcome
  rw [toOption_eq_some_iff] at h loads
  refine ⟨compiled, image, h, of_decide_eq_true fits, loads, state, ran, halted, ?_⟩
  obtain ⟨image', loads', -, -, times, -, inStep⟩ :=
    compiled_run_in_step h (by decide) (by decide) (of_decide_eq_true fits)
  obtain rfl : image = image' := Except.ok.inj (loads.symm.trans loads')
  obtain ⟨⟨computer, advanced, matched⟩, -⟩ := inStep 34 state ran
  refine ⟨_, computer, advanced, halted ▸ matched.pc, ?_⟩
  rw [matched.ram 256 (by decide), answer]

end Program

end HackVM
