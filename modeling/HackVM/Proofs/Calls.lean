import Mathlib
import HackVM.Proofs.Execution
import HackVM.Proofs.Positions

/-!
# Calls and returns

What calling a function and returning from it do to memory. `Frame.build` is the memory behind a call
and `Frame.unwind` the memory behind a return; the shared routines compute them, except for the scratch
cells. A return undoes its call, whatever happened in between, as long as the frame is still there.
-/

namespace HackVM

namespace Frame

/-- The memory behind a call: the frame lies in five cells from the old top of the stack on, and the
bases of the callee are set. -/
def build (ram : Memory) (top : Nat) (back arguments : Word) : Memory :=
  let saved := poke (poke (poke (poke (poke ram top back) (top + 1) (peek ram 1))
    (top + 2) (peek ram 2)) (top + 3) (peek ram 3)) (top + 4) (peek ram 4)
  poke (poke (poke saved 0 (word (top + 5))) 1 (word (top + 5))) 2 (word top - arguments)

/-- The memory behind a return with a frame that starts at a cell: the value on top of the callee's
stack goes where the arguments started, the stack ends behind it, and the bases are read back from the
frame, from its last cell down. -/
def unwind (ram : Memory) (frame start top : Nat) : Memory :=
  let ram := poke (poke ram start (peek ram top)) 0 (word (start + 1))
  let ram := poke ram 4 (peek ram (frame + 4))
  let ram := poke ram 3 (peek ram (frame + 3))
  let ram := poke ram 2 (peek ram (frame + 2))
  poke ram 1 (peek ram (frame + 1))

variable {cells : List Nat} {ram ram' : Memory} {frame start top : Nat}

/-- Calls in memories that agree lead to memories that agree. -/
lemma agreeOff_build (h : AgreeOff cells ram ram') (bases : ∀ base ∈ [1, 2, 3, 4], base ∉ cells)
    (top : Nat) (back arguments : Word) :
    AgreeOff cells (build ram top back arguments) (build ram' top back arguments) := by
  have same : ∀ base ∈ [1, 2, 3, 4], peek ram base = peek ram' base :=
    fun base hb => h base (bases base hb)
  rw [build, build, same 1 (by simp), same 2 (by simp), same 3 (by simp), same 4 (by simp)]
  iterate 8 refine AgreeOff.poke_both ?_ _ _
  exact h

/-- Returns in memories that agree lead to memories that agree. -/
lemma agreeOff_unwind (h : AgreeOff cells ram ram')
    (frames : ∀ offset ∈ [1, 2, 3, 4], frame + offset ∉ cells) (value : top ∉ cells)
    (start : Nat) :
    AgreeOff cells (unwind ram frame start top) (unwind ram' frame start top) := by
  have delivered := (h.poke_peek start value).poke_both 0 (word (start + 1))
  have that := delivered.poke_peek 4 (frames 4 (by simp))
  have this := that.poke_peek 3 (frames 3 (by simp))
  have arg := this.poke_peek 2 (frames 2 (by simp))
  exact arg.poke_peek 1 (frames 1 (by simp))

end Frame

namespace Image

open Code

variable {image : Image} {ram : Memory} {a d : Word} {pc s entry back : Nat} {target label : String}

attribute [local simp] exec_nil exec_address exec_number exec_assign Comp.result Comp.operand
  Comp.source? Comp.value Comp.readsMemory Dest.toA Dest.toD Dest.toM Dest.toAM Dest.toMD
  toNat_word_cell zero_lt_ramSize word_add_one word_succ_sub_one

/-- Every folding of the number of arguments leaves it in the same cell. -/
lemma exec_loadArgumentCount (count : UInt16) :
    ∃ d', image.exec (loadArgumentCount count) ⟨ram, a, d, pc⟩ =
      .ok ⟨poke ram 13 (word count.toNat), word 13, d', pc + (loadArgumentCount count).size⟩ := by
  have cell : Register.argumentCount.address < ramSize := by decide
  rw [loadArgumentCount]
  split_ifs with zero one
  · subst zero
    refine ⟨d, ?_⟩
    rw [exec_address, exec_assign fun _ => cell]
    rfl
  · subst one
    refine ⟨d, ?_⟩
    rw [exec_address, exec_assign fun _ => cell]
    rfl
  · refine ⟨word count.toNat, ?_⟩
    rw [exec_append (exec_loadNumber count), exec_storeD cell]
    rfl

/-- Saving a base on the stack, whose top cell the stack pointer names. -/
lemma exec_saveBase {base : Register} {rest : Code} (low : 0 < base.address)
    (high : base.address < 16) (h : s + 1 < ramSize) :
    image.exec (loadD base ++
        ([Code.address .sp, assign .toAM (.inc .m), assign .toM .d] ++ rest))
        ⟨poke ram 0 (word s), a, d, pc⟩ =
      image.exec rest ⟨poke (poke ram (s + 1) (peek ram base.address)) 0 (word (s + 1)),
        word (s + 1), peek ram base.address, pc + 5⟩ := by
  have cell : base.address < ramSize := high.trans (by decide)
  rw [exec_append (exec_loadD cell), poke_comm (Nat.succ_ne_zero s)]
  simp [h, low.ne, poke_poke_self]

/-- The end of the call routine sets the callee's bases and goes to the callee. -/
lemma exec_enterCallee :
    image.exec ([Code.address .sp, assign .toMD (.inc .m)] ++ (storeD .lcl ++
      ([number Frame.size, assign .toD (.sub .a), Code.address .argumentCount,
        assign .toD (.sub .m)] ++ (storeD .arg ++ gotoVia .callTarget))))
        ⟨poke ram 0 (word (s + 4)), a, d, pc⟩ =
      .ok ⟨poke (poke (poke ram 0 (word (s + 5))) 1 (word (s + 5))) 2 (word s - peek ram 13),
        peek ram 14, word s - peek ram 13, (peek ram 14).toNat⟩ := by
  have bound : ∀ cell < 16, cell < ramSize := fun cell h => h.trans (by decide)
  have top : image.exec [Code.address .sp, assign .toMD (.inc .m)]
      ⟨poke ram 0 (word (s + 4)), a, d, pc⟩ =
        .ok ⟨poke ram 0 (word (s + 5)), word 0, word (s + 5), pc + 2⟩ := by
    simp [poke_poke_self]
  have first : ∀ ram : Memory, ∀ a pc, image.exec [number Frame.size, assign .toD (.sub .a),
      Code.address .argumentCount, assign .toD (.sub .m)] ⟨ram, a, word (s + 5), pc⟩ =
        .ok ⟨ram, word 13, word s - peek ram 13, pc + 4⟩ := by
    intro ram a pc
    have size : word Frame.size.toNat = word 5 := rfl
    simp [bound, size, word_add_sub]
  rw [exec_append top, exec_append (exec_storeD (bound _ (by decide))), exec_append (first _ _ _),
    exec_append (exec_storeD (bound _ (by decide))), exec_gotoVia (bound _ (by decide))]
  simp

/-- The call routine builds the frame and goes to the callee. -/
lemma exec_callCode (sp : peek ram 0 = word s) (low : 16 ≤ s) (high : s + 5 ≤ ramSize) :
    image.exec Routine.callCode ⟨ram, a, d, pc⟩ =
      .ok ⟨Frame.build ram s d (peek ram 13), peek ram 14, word s - peek ram 13,
        (peek ram 14).toNat⟩ := by
  have start : image.exec
      [.label (Routine.entry .call), Code.address .sp, assign .toA (.input .m), assign .toM .d]
        ⟨ram, a, d, pc⟩ = .ok ⟨poke (poke ram s d) 0 (word s), word s, d, pc + 3⟩ := by
    have free : peek (poke ram s d) 0 = word s := by rw [peek_poke_of_ne (by omega), sp]
    rw [exec_cons rfl, poke_of_peek free zero_lt_ramSize]
    simp [sp, show s < ramSize by omega]
  simp only [Routine.callCode, Frame.bases, List.flatMap_cons, List.flatMap_nil, List.append_assoc,
    List.nil_append]
  rw [exec_append start, exec_saveBase (by decide) (by decide) (by omega),
    exec_saveBase (by decide) (by decide) (by omega),
    exec_saveBase (by decide) (by decide) (by omega),
    exec_saveBase (by decide) (by decide) (by omega), exec_enterCallee]
  -- The frame lies above the registers, so what is read there is what was there before.
  simp (disch := omega) [Frame.build]

/-- The end of a call site is where its return label stands. -/
lemma Holds.places_back {arguments : UInt16}
    (site : image.Holds pc (callSequence target arguments label)) :
    image.Places label (pc + (callSequence target arguments label).size) := by
  have placed := (holds_append.mp site).2.1
  rw [callSequence, Code.size_append]
  exact placed

/-- A call site hands its inputs to the call routine. -/
lemma Holds.reaches_routine {arguments : UInt16} {routine : Nat}
    (site : image.Holds pc (callSequence target arguments label))
    (callee : image.Places target entry) (placed : image.Places (Routine.entry .call) routine) :
    image.Reaches ⟨ram, a, d, pc⟩
      ⟨poke (poke ram 13 (word arguments.toNat)) 14 (word entry), word routine,
        word (pc + (callSequence target arguments label).size), routine⟩ := by
  have back := site.places_back
  have front := (holds_append.mp site).1
  obtain ⟨d', counted⟩ : ∃ d', image.exec (loadArgumentCount arguments) ⟨ram, a, d, pc⟩ =
      .ok ⟨_, _, d', _⟩ := exec_loadArgumentCount arguments
  refine Holds.reaches front ?_ ?_
  · rw [loadArgumentCount]
    split_ifs <;> rfl
  · simp only [List.append_assoc]
    rw [exec_append counted, exec_append (exec_loadSymbol callee),
      exec_append (exec_storeD (by decide)), exec_append (exec_loadSymbol back), exec_goto placed]
    rfl

/-- A call builds the frame and goes to the callee; besides, only the two scratch cells change that
carry the inputs of the call routine. -/
lemma Holds.reaches_callee {arguments : UInt16} {routine : Nat}
    (site : image.Holds pc (callSequence target arguments label))
    (callee : image.Places target entry) (placed : image.Places (Routine.entry .call) routine)
    (code : image.Holds routine Routine.callCode) (sp : peek ram 0 = word s) (low : 16 ≤ s)
    (high : s + 5 ≤ ramSize) :
    ∃ a' d', image.Reaches ⟨ram, a, d, pc⟩
      ⟨Frame.build (poke (poke ram 13 (word arguments.toNat)) 14 (word entry)) s
        (word (pc + (callSequence target arguments label).size)) (word arguments.toNat),
        a', d', entry⟩ := by
  have handed : image.Reaches ⟨ram, a, d, pc⟩ _ := site.reaches_routine callee placed
  set inputs := poke (poke ram 13 (word arguments.toNat)) 14 (word entry) with inputs_eq
  have cell : 13 < ramSize ∧ 14 < ramSize := by decide
  have sp' : peek inputs 0 = word s := by simpa [inputs_eq] using sp
  have count : peek inputs 13 = word arguments.toNat := by simp [inputs_eq, cell]
  have goal : peek inputs 14 = word entry := by simp [inputs_eq, cell]
  have called := handed.trans (Holds.reaches code rfl (exec_callCode sp' low high))
  rw [count, goal, callee.toNat_word] at called
  exact ⟨_, _, called⟩

section Return

variable {frame start top : Nat} {rest : Code}

/-- The return routine first notes the return address, which lies at the bottom of the frame. -/
lemma exec_noteReturn (lcl : peek ram 1 = word (frame + 5)) (h : frame < ramSize) :
    image.exec ([.label (Routine.entry .return), number (Frame.depth .returnAddress),
      assign .toD (.input .a), Code.address .lcl, assign .toA (.subFrom .m), assign .toD (.input .m)] ++
      (storeD .returnAddress ++ rest)) ⟨ram, a, d, pc⟩ =
      image.exec rest ⟨poke ram 13 (peek ram frame), word 13, peek ram frame, pc + 7⟩ := by
  have one : 1 < ramSize := by decide
  have depth : word (Frame.depth .returnAddress).toNat = word 5 := rfl
  have address : image.exec [.label (Routine.entry .return), number (Frame.depth .returnAddress),
      assign .toD (.input .a), Code.address .lcl, assign .toA (.subFrom .m),
      assign .toD (.input .m)] ⟨ram, a, d, pc⟩ =
        .ok ⟨ram, word frame, peek ram frame, pc + 5⟩ := by
    rw [exec_cons rfl]
    simp [one, depth, lcl, word_add_sub, h]
  rw [exec_append address, exec_append (exec_storeD (by decide))]
  rfl

/-- The value to return goes where the arguments start, and the stack ends behind it. -/
lemma exec_deliver (sp : peek ram 0 = word (top + 1)) (arg : peek ram 2 = word start)
    (top_pos : 0 < top) (top_lt : top < ramSize) (start_pos : 0 < start)
    (start_lt : start < ramSize) :
    image.exec (popD ++ ([Code.address .arg, assign .toA (.input .m), assign .toM .d,
      assign .toD (.input .a), Code.address .sp, assign .toM .incD] ++ rest)) ⟨ram, a, d, pc⟩ =
      image.exec rest ⟨poke (poke ram start (peek ram top)) 0 (word (start + 1)), word 0,
        word start, pc + 9⟩ := by
  have two : 2 < ramSize := by decide
  rw [exec_append (exec_popD sp top_pos top_lt)]
  simp [two, arg, start_lt, poke_comm start_pos.ne, poke_poke_self]

/-- The topmost saved base is read from the end of the frame. -/
lemma exec_restoreThat (lcl : peek ram 1 = word (frame + 5)) (low : 16 ≤ frame)
    (high : frame + 5 ≤ ramSize) :
    image.exec (loadD .lcl ++ ([Code.address .frameWalker, assign .toAM .decD] ++
      ([assign .toD (.input .m)] ++ (storeD .that ++ rest)))) ⟨ram, a, d, pc⟩ =
      image.exec rest ⟨poke (poke ram 4 (peek ram (frame + 4))) 14 (word (frame + 4)), word 4,
        peek ram (frame + 4), pc + 7⟩ := by
  rw [exec_append (exec_loadD (by decide)), Register.address_lcl, lcl, poke_comm (by decide)]
  simp (disch := omega) [storeD]

/-- A saved base is read from the cell below the one that was read last. -/
lemma exec_restoreBase {base : Register} {cell : Nat} (low : base.address < 13)
    (above : 14 < cell) (h : cell < ramSize) :
    image.exec ([Code.address .frameWalker, assign .toAM (.dec .m)] ++
      ([assign .toD (.input .m)] ++ (storeD base ++ rest))) ⟨poke ram 14 (word (cell + 1)), a, d, pc⟩ =
      image.exec rest ⟨poke (poke ram base.address (peek ram cell)) 14 (word cell),
        word base.address, peek ram cell, pc + 5⟩ := by
  rw [poke_comm (by omega)]
  simp (disch := omega) [storeD, poke_poke_self]

/-- The return routine takes the frame down and goes to the return address. -/
lemma exec_returnCode (lcl : peek ram 1 = word (frame + 5)) (arg : peek ram 2 = word start)
    (sp : peek ram 0 = word (top + 1)) (frame_low : 16 ≤ frame) (frame_high : frame + 5 ≤ ramSize)
    (start_low : 16 ≤ start) (start_high : start < ramSize) (top_low : 16 ≤ top)
    (top_high : top < ramSize) :
    ∃ d', image.exec Routine.returnCode ⟨ram, a, d, pc⟩ =
      .ok ⟨poke (Frame.unwind (poke ram 13 (peek ram frame)) frame start top) 14
        (word (frame + 1)), peek ram frame, d', (peek ram frame).toNat⟩ := by
  have bases : Frame.bases.reverse.zipIdx = [(.that, 0), (.this, 1), (.arg, 2), (.lcl, 3)] := rfl
  simp only [Routine.returnCode, bases, List.flatMap_cons, List.flatMap_nil, List.append_assoc,
    List.nil_append, Nat.lt_irrefl, Nat.ofNat_pos, Nat.zero_lt_one, if_true, if_false]
  set noted := poke ram 13 (peek ram frame) with noted_eq
  have sp' : peek noted 0 = word (top + 1) := by simpa [noted_eq] using sp
  have arg' : peek noted 2 = word start := by simpa [noted_eq] using arg
  have lcl' : peek (poke (poke noted start (peek noted top)) 0 (word (start + 1))) 1 =
      word (frame + 5) := by
    simpa (disch := omega) [noted_eq] using lcl
  rw [exec_noteReturn lcl (by omega), exec_deliver sp' arg' (by omega) top_high (by omega) start_high,
    exec_restoreThat lcl' frame_low frame_high, exec_restoreBase (by decide) (by omega) (by omega),
    exec_restoreBase (by decide) (by omega) (by omega),
    exec_restoreBase (by decide) (by omega) (by omega), exec_gotoVia (by decide)]
  -- The bases are written below the scratch cells, so the noted address is still there.
  have kept : peek (poke (Frame.unwind noted frame start top) 14 (word (frame + 1))) 13 =
      peek ram frame := by
    have cell : 13 < ramSize := by decide
    simp (disch := omega) [Frame.unwind, noted_eq]
  exact ⟨_, by rw [← kept]; rfl⟩

/-- A return takes the frame down and goes to the return address; besides, only the two scratch cells
of the return routine change. -/
lemma Holds.reaches_back (code : image.Holds pc Routine.returnCode)
    (lcl : peek ram 1 = word (frame + 5)) (arg : peek ram 2 = word start)
    (sp : peek ram 0 = word (top + 1)) (frame_low : 16 ≤ frame) (frame_high : frame + 5 ≤ ramSize)
    (start_low : 16 ≤ start) (start_high : start < ramSize) (top_low : 16 ≤ top)
    (top_high : top < ramSize) :
    ∃ resumed, image.Reaches ⟨ram, a, d, pc⟩ resumed ∧ resumed.pc = (peek ram frame).toNat ∧
      AgreeOff [13, 14] resumed.ram (Frame.unwind ram frame start top) := by
  obtain ⟨d', executed⟩ : ∃ d', image.exec Routine.returnCode ⟨ram, a, d, pc⟩ = .ok ⟨_, _, d', _⟩ :=
    exec_returnCode lcl arg sp frame_low frame_high start_low start_high top_low top_high
  refine ⟨_, Holds.reaches code rfl executed, rfl, ?_⟩
  have noted : AgreeOff [13, 14] (poke ram 13 (peek ram frame)) ram :=
    (AgreeOff.refl _ ram).poke_left (by simp) _
  refine AgreeOff.poke_left ?_ (by simp) _
  refine Frame.agreeOff_unwind noted ?_ ?_ start
  · simp
    omega
  · simp
    omega

end Return

end Image

/-- A frame lies in the five cells from a cell on: the return address and the caller's bases. -/
structure Frame.Saves (ram : Memory) (top : Nat) (back : Word) (caller : Memory) : Prop where
  back : peek ram top = back
  lcl : peek ram (top + 1) = peek caller 1
  arg : peek ram (top + 2) = peek caller 2
  this : peek ram (top + 3) = peek caller 3
  that : peek ram (top + 4) = peek caller 4

/-- A call with `n` arguments on a stack that ends at `s` brought a computer to the callee. -/
structure Image.Called (image : Image) (computer : Computer) (s n entry back : Nat)
    (called : Computer) : Prop where
  reached : image.Reaches computer called
  pc : called.pc = entry
  sp : peek called.ram 0 = word (s + 5)
  lcl : peek called.ram 1 = word (s + 5)
  arg : peek called.ram 2 = word (s - n)
  frame : Frame.Saves called.ram s (word back) computer.ram
  unchanged : AgreeOff [0, 1, 2, 13, 14, s, s + 1, s + 2, s + 3, s + 4] called.ram computer.ram

/-- A return with a stack that ends at `t` brought a computer back behind the call that another one
made with `n` arguments on a stack that ended at `s`. -/
structure Image.Returned (image : Image) (computer returning : Computer) (s n t back : Nat)
    (resumed : Computer) : Prop where
  reached : image.Reaches returning resumed
  pc : resumed.pc = back
  sp : peek resumed.ram 0 = word (s - n + 1)
  value : peek resumed.ram (s - n) = peek returning.ram (t - 1)
  bases : ∀ base ∈ Frame.bases,
    peek resumed.ram base.address = peek computer.ram base.address
  unchanged : AgreeOff [0, 1, 2, 3, 4, 13, 14, s - n] resumed.ram returning.ram

namespace Image

open Code

variable {image : Image} {computer returning : Computer} {s t entry back : Nat}
  {target label : String}

/-- A call brings the computer to the callee. -/
lemma Holds.exists_called {arguments : UInt16} {routine : Nat}
    (site : image.Holds computer.pc (callSequence target arguments label))
    (callee : image.Places target entry) (placed : image.Places (Routine.entry .call) routine)
    (code : image.Holds routine Routine.callCode) (sp : peek computer.ram 0 = word s)
    (low : 16 + arguments.toNat ≤ s) (high : s + 5 ≤ ramSize) :
    ∃ called, image.Called computer s arguments.toNat entry
      (computer.pc + (callSequence target arguments label).size) called := by
  obtain ⟨ram, a, d, pc⟩ := computer
  obtain ⟨a', d', reached⟩ : ∃ a' d', image.Reaches ⟨ram, a, d, pc⟩ ⟨_, a', d', entry⟩ :=
    site.reaches_callee callee placed code sp (by omega) high
  have one : 1 < ramSize ∧ 2 < ramSize := by decide
  refine ⟨_, reached, rfl, ?_, ?_, ?_, ⟨?_, ?_, ?_, ?_, ?_⟩, ?_⟩
  case refine_3 =>
    rw [Frame.build, peek_poke_self one.2, word_sub (by omega)]
  case refine_9 =>
    intro cell hc
    simp only [List.mem_cons, not_or] at hc
    simp (disch := omega) [Frame.build]
  all_goals simp (disch := omega) [Frame.build]

/-- A return brings the computer back behind the call. -/
lemma Holds.exists_returned {n : Nat} (code : image.Holds returning.pc Routine.returnCode)
    (lcl : peek returning.ram 1 = word (s + 5)) (arg : peek returning.ram 2 = word (s - n))
    (frame : Frame.Saves returning.ram s (word back) computer.ram)
    (placed : image.Places label back) (sp : peek returning.ram 0 = word t) (low : 16 + n ≤ s)
    (high : s + 5 ≤ ramSize) (above : 17 ≤ t) (below : t ≤ ramSize) :
    ∃ resumed, image.Returned computer returning s n t back resumed := by
  obtain ⟨ram, a, d, pc⟩ := returning
  obtain ⟨top, rfl⟩ : ∃ top, t = top + 1 := ⟨t - 1, by omega⟩
  obtain ⟨resumed, reached, pc_eq, agree⟩ : ∃ resumed, image.Reaches ⟨ram, a, d, pc⟩ resumed ∧ _ :=
    code.reaches_back lcl arg sp (by omega) high (by omega) (by omega) (by omega) (by omega)
  have zero : 4 < ramSize := by decide
  refine ⟨resumed, reached, ?_, ?_, ?_, ?_, ?_⟩
  · rw [pc_eq, frame.back, placed.toNat_word]
  · rw [agree 0 (by simp)]
    simp (disch := omega) [Frame.unwind]
  · rw [agree _ (by simp; omega)]
    simp (disch := omega) [Frame.unwind]
  · intro base hb
    simp only [Frame.bases, List.mem_cons, List.not_mem_nil, or_false] at hb
    -- The value to return lies below the saved bases, so they are read as they were saved.
    rcases hb with rfl | rfl | rfl | rfl
    · rw [agree _ (by decide), Register.address_lcl, ← frame.lcl]
      simp (disch := omega) [Frame.unwind]
    · rw [agree _ (by decide), Register.address_arg, ← frame.arg]
      simp (disch := omega) [Frame.unwind]
    · rw [agree _ (by decide), Register.address_this, ← frame.this]
      simp (disch := omega) [Frame.unwind]
    · rw [agree _ (by decide), Register.address_that, ← frame.that]
      simp (disch := omega) [Frame.unwind]
  · intro cell hc
    simp only [List.mem_cons, not_or] at hc
    rw [agree cell (by simp; omega)]
    simp (disch := omega) [Frame.unwind]

end Image

namespace Program

variable {settings : Settings} {program : Program} {image : Image}

/-- The places in the code of a program that call a function, each with its address, the callee, the
number of arguments and the return label: the bootstrap and the call commands. -/
inductive CallSite (settings : Settings) (program : Program) :
    (address : Nat) → (callee : String) → (arguments : UInt16) → (label : String) → Prop where
  | bootstrap : CallSite settings program 4 settings.entryPoint 0 Bootstrap.returnLabel
  | command {index : Nat} {scope : Scope} {callee : String} {arguments : UInt16}
      (line : program.lines[index]? = some ⟨scope, .call callee arguments⟩) :
      CallSite settings program (program.address settings index) callee arguments
        (scope.returnLabel "ret" (program.serial index + 1))

/-- The code of a call site stands at its address, and its target is the entry of the callee. -/
lemma CallSite.holds (loaded : Loaded settings program image) {address : Nat} {callee label : String}
    {arguments : UInt16} (site : CallSite settings program address callee arguments label) :
    ∃ unit, program.definitions.lookup callee = some unit ∧
      image.Holds address (Code.callSequence (Scope.entry ⟨unit, callee⟩) arguments label) := by
  cases site with
  | bootstrap =>
    obtain ⟨unit, hu⟩ := loaded.accepted.exists_entry
    have holds := loaded.holds_bootstrap
    rw [Bootstrap.code, entryLabel, hu, Option.map_some, Option.getD_some, List.append_assoc,
      List.append_assoc, Image.holds_append] at holds
    exact ⟨unit, hu, (Image.holds_append.mp holds.2).1⟩
  | @command index scope _ _ line =>
    have wf := (loaded.accepted.line_legal (List.mem_of_getElem? line)).2.2
    have holds := loaded.holds_line line
    cases hu : program.definitions.lookup callee with
    | none => exact absurd wf.2 (lookup_eq_none_iff_notMem.mp hu)
    | some unit =>
      rw [lineCode, Line.code_call wf.1 hu] at holds
      exact ⟨unit, rfl, holds⟩

/-- A call brings the computer to the callee with its frame on the stack, and a return from there, by
whatever behaviour of the callee, brings it back with the value to return in place of the arguments and
with the caller's bases, even if there are no arguments and the value takes the place of the return
address. -/
theorem call_return_restores {compiled : Compiled} (h : compile settings program = .ok compiled)
    (loads : Image.ofCode compiled.code = .ok image) {site : Nat} {callee label : String}
    {arguments : UInt16} (emitted : CallSite settings program site callee arguments label)
    {computer : Computer} (here : computer.pc = site) {s : Nat}
    (sp : peek computer.ram 0 = word s) (low : 16 + arguments.toNat ≤ s)
    (high : s + 5 ≤ ramSize) :
    ∃ unit entry back routine, program.definitions.lookup callee = some unit ∧
      image.labels.lookup (Scope.entry ⟨unit, callee⟩) = some entry ∧
      image.labels.lookup label = some back ∧
      image.labels.lookup (Routine.entry .return) = some routine ∧
      (∃ called, image.Called computer s arguments.toNat entry back called) ∧
      ∀ (returning : Computer) (t : Nat), returning.pc = routine →
        peek returning.ram 1 = word (s + 5) → peek returning.ram 2 = word (s - arguments.toNat) →
        Frame.Saves returning.ram s (word back) computer.ram →
        peek returning.ram 0 = word t → 17 ≤ t → t ≤ ramSize →
        ∃ resumed, image.Returned computer returning s arguments.toNat t back resumed := by
  have loaded := Loaded.of_compile h loads
  obtain ⟨unit, hu, holds⟩ := emitted.holds loaded
  obtain ⟨locals, started⟩ := loaded.accepted.line_functionIndex hu
  have callee := loaded.places_entry started
  have back := holds.places_back
  obtain ⟨call, call_placed, call_code⟩ := loaded.exists_routine .call
  obtain ⟨return_, return_placed, return_code⟩ := loaded.exists_routine .return
  refine ⟨unit, _, _, return_, hu, callee.listed, back.listed, return_placed.listed, ?_, ?_⟩
  · subst here
    exact holds.exists_called callee call_placed call_code sp low high
  · rintro returning t rfl lcl arg frame sp' above below
    exact return_code.exists_returned lcl arg frame back sp' low high above below

/-- A program that calls a function without arguments. -/
def caller : Program :=
  [⟨"Main", [.function "main" 0, .push .constant 7, .call "five" 0, .operate .add, .ret]⟩,
    ⟨"Lib", [.function "five" 2, .push .constant 5, .ret]⟩]

/-- The call without arguments, made on a stack that ends at cell 300, reaches the callee, and a return
with the frame in place comes back, with the value to return where the return address was. -/
theorem caller_call_return_restores :
    ∃ compiled image, compile ⟨"main", 256, 1⟩ caller = .ok compiled ∧
      Image.ofCode compiled.code = .ok image ∧
      let computer : Computer :=
        ⟨poke Computer.initial.ram 0 (word 300), 0, 0, caller.address ⟨"main", 256, 1⟩ 2⟩
      ∃ entry back routine called resumed, image.Called computer 300 0 entry back called ∧
        image.Returned computer ⟨Frame.build computer.ram 300 (word back) 0, 0, 0, routine⟩ 300 0 305
          back resumed := by
  have accepted : ((compile ⟨"main", 256, 1⟩ caller).toOption.bind fun compiled =>
      (Image.ofCode compiled.code).toOption).isSome = true := by
    decide +kernel
  obtain ⟨image, accepted⟩ := Option.isSome_iff_exists.mp accepted
  obtain ⟨compiled, h, loads⟩ := Option.bind_eq_some_iff.mp accepted
  rw [toOption_eq_some_iff] at h loads
  refine ⟨compiled, image, h, loads, ?_⟩
  intro computer
  have line : caller.lines[2]? = some ⟨⟨"Main", "main"⟩, .call "five" 0⟩ := rfl
  have sp : peek computer.ram 0 = word 300 := peek_poke_self zero_lt_ramSize
  obtain ⟨unit, entry, back, routine, -, -, -, -, ⟨called, reached⟩, returns⟩ :=
    call_return_restores h loads (.command line) rfl sp (by decide) (by decide)
  have cells : 305 < ramSize := by decide
  obtain ⟨resumed, returned⟩ :=
    returns ⟨Frame.build computer.ram 300 (word back) 0, 0, 0, routine⟩ 305 rfl
      (by simp (disch := omega) [Frame.build]) (by simp (disch := omega) [Frame.build])
      (by constructor <;> simp (disch := omega) [Frame.build])
      (by simp (disch := omega) [Frame.build]) (by decide) (by decide)
  exact ⟨entry, back, routine, called, resumed, reached, returned⟩

end Program

end HackVM
