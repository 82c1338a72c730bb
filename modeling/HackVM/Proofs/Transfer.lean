import Mathlib
import HackVM.Proofs.Functions
import HackVM.Proofs.Simulation
import HackVM.Proofs.Statics

/-!
# Pushing and popping

Pushing and popping move exactly one value. `Segment.cell?` says which cell an index of a segment names,
from the contents of the base registers and from where loading put the static variables; the code of a push
or a pop then changes the stack pointer and one other cell, wherever the code stands and whatever that other
cell is. The stack pointer, a base register or the popped cell itself may be the target of a pop.
-/

namespace HackVM

/-- Loading gave the variable with a symbol a cell, and the symbol stands for its address. -/
structure Image.Allots (image : Image) (symbol : String) : Prop where
  cell : image.variableCell? symbol = some (image.cellOf symbol)
  value : image.value (.symbol symbol) = word (image.cellOf symbol)

namespace Segment

/-- The cell that an index of a segment names; the constant segment has no cells. -/
def cell? (segment : Segment) (unit : String) (index : UInt16) (image : Image) (ram : Memory) :
    Option Nat :=
  match segment with
  | .locals => some (peek ram 1 + word index.toNat).toNat
  | .arguments => some (peek ram 2 + word index.toNat).toNat
  | .this => some (peek ram 3 + word index.toNat).toNat
  | .that => some (peek ram 4 + word index.toNat).toNat
  | .pointer => some (3 + index.toNat)
  | .temp => some (5 + index.toNat)
  | .constant => none
  | .statics => image.variableCell? (staticSymbol unit index)

/-- The value at an index of a segment: the content of its cell, or the index if it has none. -/
def content (segment : Segment) (unit : String) (index : UInt16) (image : Image) (ram : Memory) :
    Word :=
  ((segment.cell? unit index image ram).map (peek ram)).getD (word index.toNat)

variable {segment : Segment} {unit : String} {index : UInt16} {image : Image} {ram : Memory}

/-- A push leaves the base registers alone, so every index names the same cell behind it. -/
lemma cell?_pushed {s : Nat} (low : 16 ≤ s) (value : Word) :
    segment.cell? unit index image (pushed ram s value) = segment.cell? unit index image ram := by
  have base : ∀ register, 0 < register → register < 16 →
      peek (pushed ram s value) register = peek ram register := by
    intro register pos small
    rw [pushed, peek_poke_of_ne (by omega), peek_poke_of_ne (by omega)]
  cases segment with
  | locals | arguments | this | that => rw [cell?, cell?, base _ (by decide) (by decide)]
  | _ => rfl

/-- The place that an index is resolved to can be reached by code, and is the cell that the index names. -/
lemma place_of_resolve (image : Image) {location : Location}
    (resolved : segment.resolve unit index = .ok location)
    (allots : segment = .statics → image.Allots (staticSymbol unit index)) (ram : Memory) :
    location.Reachable image ∧ location.cell? image ram = segment.cell? unit index image ram := by
  unfold resolve at resolved
  by_cases high : segment.maxIndex < index
  · rw [if_pos high] at resolved
    cases resolved
  · rw [if_neg high] at resolved
    cases resolved
    cases segment with
    | locals | arguments | this | that =>
      refine ⟨?_, rfl⟩
      change Register.address _ < ramSize
      decide
    | pointer =>
      refine ⟨trivial, ?_⟩
      have small : index.toNat ≤ 1 := UInt16.le_iff_toNat_le.mp (UInt16.not_lt.mp high)
      dsimp only [cell?]
      split_ifs with zero
      · subst zero
        rfl
      · have one : index.toNat = 1 := by
          have : index.toNat ≠ 0 := fun e => zero (UInt16.toNat_inj.mp e)
          omega
        rw [one]
        rfl
    | temp | constant => exact ⟨trivial, rfl⟩
    | statics => exact ⟨(allots rfl).value, (allots rfl).cell.symm⟩

end Segment

namespace Location

/-- The value at the place that an index is resolved to is the value at the index. -/
lemma content_of_resolve {segment : Segment} {unit : String} {index : UInt16} {image : Image}
    {ram : Memory} {location : Location} (resolved : segment.resolve unit index = .ok location)
    (named : location.cell? image ram = segment.cell? unit index image ram) :
    location.content image ram = segment.content unit index image ram := by
  rw [Segment.content, ← named]
  rcases Segment.location_of_resolve resolved with ⟨base, -, rfl⟩ | ⟨register, rfl⟩ | rfl | rfl
  all_goals rfl

end Location

/-- Popping what was just pushed from the same cell changes the cell behind the stack only. -/
lemma popped_pushed {ram : Memory} {s cell : Nat} (sp : peek ram 0 = word s) (pos : 0 < s)
    (hs : s < ramSize) (hc : cell < ramSize) :
    popped (pushed ram s (peek ram cell)) s cell = poke ram s (peek ram cell) := by
  have top : peek (pushed ram s (peek ram cell)) s = peek ram cell := peek_poke_self hs
  refine memory_ext fun other _ => ?_
  rw [popped, top, peek_poke hc, peek_poke zero_lt_ramSize, pushed, peek_poke hs, peek_poke hs,
    peek_poke zero_lt_ramSize]
  -- The target of the pop may be the pointer or the cell behind the stack itself.
  by_cases target : cell = other
  · subst target
    simp
  · by_cases pointer : 0 = other
    · subst pointer
      simp [target, pos.ne', sp]
    · simp [target, pointer]

namespace Image

/-- Code that stands at an address turns one memory into another and ends just behind itself, whatever the
registers of the processor hold. -/
structure Runs (image : Image) (pc : Nat) (code : Code) (ram ram' : Memory) : Prop where
  stands : image.Holds pc code
  ends : ∀ a d, ∃ a' d', image.Reaches ⟨ram, a, d, pc⟩ ⟨ram', a', d', pc + code.size⟩

variable {image : Image} {pc : Nat} {ram ram' ram'' : Memory} {location : Location}

/-- Code that stands behind other code goes on with the memory that the other left. -/
lemma Runs.append {first second : Code} (h : image.Runs pc first ram ram')
    (h' : image.Runs (pc + first.size) second ram' ram'') :
    image.Runs pc (first ++ second) ram ram'' := by
  refine ⟨holds_append.mpr ⟨h.stands, h'.stands⟩, fun a d => ?_⟩
  obtain ⟨a₁, d₁, reached⟩ := h.ends a d
  obtain ⟨a₂, d₂, reached'⟩ := h'.ends a₁ d₁
  rw [Code.size_append, ← Nat.add_assoc]
  exact ⟨a₂, d₂, reached.trans reached'⟩

lemma Holds.runs_push {s : Nat} (holds : image.Holds pc location.pushCode)
    (reachable : location.Reachable image) (sp : peek ram 0 = word s) (hs : s < ramSize)
    (inside : ∀ cell ∈ location.cell? image ram, cell < ramSize) :
    image.Runs pc location.pushCode ram (pushed ram s (location.content image ram)) := by
  refine ⟨holds, fun a d => ?_⟩
  obtain ⟨a', d', executed⟩ : ∃ a' d', image.exec location.pushCode ⟨ram, a, d, pc⟩ =
      .ok ⟨_, a', d', _⟩ := exec_pushCode reachable sp hs inside
  exact ⟨a', d', Holds.reaches holds location.straight_pushCode executed⟩

lemma Holds.runs_pop {s cell : Nat} {code : Code} (holds : image.Holds pc code)
    (place : location.popCode? = some code) (reachable : location.Reachable image)
    (sp : peek ram 0 = word (s + 1)) (pos : 0 < s) (hs : s < ramSize)
    (named : location.cell? image ram = some cell) (inside : cell < ramSize) :
    image.Runs pc code ram (popped ram s cell) := by
  refine ⟨holds, fun a d => ?_⟩
  obtain ⟨a', d', executed⟩ : ∃ a' d', image.exec code ⟨ram, a, d, pc⟩ = .ok ⟨_, a', d', _⟩ :=
    exec_popCode reachable place sp pos hs named inside
  exact ⟨a', d', Holds.reaches holds (Location.straight_popCode place) executed⟩

end Image

/-- A line that pushes from an index of a segment or pops into it. -/
def Line.Transfers (line : Line) (segment : Segment) (index : UInt16) : Prop :=
  line.command = .push segment index ∨ line.command = .pop segment index

namespace Program

variable {settings : Settings} {program : Program} {compiled : Compiled} {image : Image}
  {line : Line} {position : Nat} {segment : Segment} {index : UInt16} {scope : Scope}

namespace Loaded

variable (loaded : Loaded settings program image)

include loaded

/-- Loading gives the static variable of a line a cell. -/
lemma allots_line (hl : line ∈ program.lines) (transfers : line.Transfers .statics index) :
    image.Allots (staticSymbol line.scope.unit index) := by
  have static : line.static? = some (line.scope.unit, index) := by
    rcases transfers with e | e <;> rw [Line.static?, e] <;> rfl
  have used : program.UsesStatic line.scope.unit index := by
    rw [← mem_statics_iff, statics_eq]
    exact List.mem_filterMap.mpr ⟨line, hl, static⟩
  have cell := loaded.variableCell?_static used
  have cellOf : image.cellOf (staticSymbol line.scope.unit index) =
      staticBase + program.staticRank line.scope.unit index := by
    rw [Image.cellOf, cell, Option.getD_some]
  exact ⟨cellOf ▸ cell, cellOf ▸ loaded.value_staticSymbol used⟩

/-- The index of a line that transfers a value names a cell, unless it is a constant. -/
lemma cell?_eq_none_iff (hl : line ∈ program.lines) (transfers : line.Transfers segment index)
    (ram : Memory) :
    segment.cell? line.scope.unit index image ram = none ↔ segment = .constant := by
  cases segment with
  | constant => exact ⟨fun _ => rfl, fun _ => rfl⟩
  | statics => simp [Segment.cell?, (loaded.allots_line hl transfers).cell]
  | _ => simp [Segment.cell?]

/-- A push changes the stack pointer and the cell behind the stack. -/
lemma runs_push (h : program.lines[position]? = some ⟨scope, .push segment index⟩) {ram : Memory}
    {s : Nat} (sp : peek ram 0 = word s) (hs : s < ramSize)
    (inside : ∀ cell ∈ segment.cell? scope.unit index image ram, cell < ramSize) :
    image.Runs (program.address settings position)
      (program.lineCode settings position ⟨scope, .push segment index⟩) ram
      (pushed ram s (segment.content scope.unit index image ram)) := by
  have hl := List.mem_of_getElem? h
  have holds := loaded.holds_line h
  have lowers := loaded.lowers_line h
  generalize program.lineCode settings position _ = code at holds lowers ⊢
  cases lowers with
  | push resolved =>
    obtain ⟨reachable, named⟩ := Segment.place_of_resolve image resolved
      (fun e => loaded.allots_line hl (.inl (by rw [e]))) ram
    rw [← Location.content_of_resolve resolved named]
    exact holds.runs_push reachable sp hs (named ▸ inside)

/-- A pop changes the stack pointer and then the cell that its index names. -/
lemma runs_pop (h : program.lines[position]? = some ⟨scope, .pop segment index⟩) {ram : Memory}
    {s cell : Nat} (sp : peek ram 0 = word (s + 1)) (pos : 0 < s) (hs : s < ramSize)
    (named : segment.cell? scope.unit index image ram = some cell) (inside : cell < ramSize) :
    image.Runs (program.address settings position)
      (program.lineCode settings position ⟨scope, .pop segment index⟩) ram (popped ram s cell) := by
  have hl := List.mem_of_getElem? h
  have holds := loaded.holds_line h
  have lowers := loaded.lowers_line h
  generalize program.lineCode settings position _ = code at holds lowers ⊢
  cases lowers with
  | pop resolved place =>
    obtain ⟨reachable, same⟩ := Segment.place_of_resolve image resolved
      (fun e => loaded.allots_line hl (.inr (by rw [e]))) ram
    exact holds.runs_pop place reachable sp pos hs (same.trans named) inside

/-- A pop has a cell to pop into. -/
lemma exists_cell (h : program.lines[position]? = some ⟨scope, .pop segment index⟩) (ram : Memory) :
    ∃ cell, segment.cell? scope.unit index image ram = some cell := by
  have hl := List.mem_of_getElem? h
  have wf := (loaded.accepted.line_legal hl).2.2
  apply Option.ne_none_iff_exists'.mp
  intro none
  exact wf.2 ((loaded.cell?_eq_none_iff hl (.inr rfl) ram).mp none)

/-- A pop behind a push belongs to the same function. -/
lemma scope_of_behind {scope' : Scope} (h : program.lines[position]? = some ⟨scope, .push segment index⟩)
    (h' : program.lines[position + 1]? = some ⟨scope', .pop segment index⟩) : scope' = scope := by
  obtain ⟨inside, e⟩ := List.getElem?_eq_some_iff.mp h
  obtain ⟨inside', e'⟩ := List.getElem?_eq_some_iff.mp h'
  have follows := (isChain_lines loaded.accepted.starts).getElem position inside'
  rw [e, e'] at follows
  rcases follows with starts | same
  · cases starts
  · exact same

/-- A push and a pop behind it take the value back to where it came from. -/
lemma runs_push_pop (push : program.lines[position]? = some ⟨scope, .push segment index⟩)
    (pop : program.lines[position + 1]? = some ⟨scope, .pop segment index⟩) {ram : Memory} {s cell : Nat}
    (sp : peek ram 0 = word s) (low : 16 ≤ s) (hs : s < ramSize)
    (named : segment.cell? scope.unit index image ram = some cell) (inside : cell < ramSize) :
    image.Runs (program.address settings position)
      (program.lineCode settings position ⟨scope, .push segment index⟩ ++
        program.lineCode settings (position + 1) ⟨scope, .pop segment index⟩) ram
      (poke ram s (peek ram cell)) := by
  have content : segment.content scope.unit index image ram = peek ram cell := by
    rw [Segment.content, named]
    rfl
  have pushes := loaded.runs_push push sp hs fun other ho => by
    rw [named] at ho
    exact Option.some.inj ho ▸ inside
  rw [content] at pushes
  have sp' : peek (pushed ram s (peek ram cell)) 0 = word (s + 1) := peek_pushed_zero (by omega) _
  have pops := loaded.runs_pop pop sp' (by omega) hs ((Segment.cell?_pushed low _).trans named) inside
  rw [popped_pushed sp (by omega) hs inside, address_succ settings push] at pops
  exact pushes.append pops

end Loaded

/-- Pushing and popping move exactly one value in a loaded program. A push takes the constant or the content
of the cell that its index names, and changes the stack pointer and the cell behind the stack. A pop moves
the stack pointer and then stores the popped value in the cell that its index names, as the base register
was before. So a push and a pop of the same index, one behind the other, change nothing but the cell behind
the stack. -/
theorem compiled_transfers_exact (h : compile settings program = .ok compiled)
    (loads : Image.ofCode compiled.code = .ok image) :
    (∀ position scope segment index,
      program.lines[position]? = some ⟨scope, .push segment index⟩ →
      ∀ (ram : Memory) (s : Nat), peek ram 0 = word s → 16 ≤ s → s < ramSize →
        (segment.cell? scope.unit index image ram = none ↔ segment = .constant) ∧
        ((∀ cell ∈ segment.cell? scope.unit index image ram, cell < ramSize) →
          image.Runs (program.address settings position)
            (program.lineCode settings position ⟨scope, .push segment index⟩) ram
            (pushed ram s (segment.content scope.unit index image ram)))) ∧
    (∀ position scope segment index,
      program.lines[position]? = some ⟨scope, .pop segment index⟩ →
      ∀ (ram : Memory) (s : Nat), peek ram 0 = word s → 17 ≤ s → s ≤ ramSize →
        ∃ cell, segment.cell? scope.unit index image ram = some cell ∧
          (cell < ramSize → image.Runs (program.address settings position)
            (program.lineCode settings position ⟨scope, .pop segment index⟩) ram
            (popped ram (s - 1) cell))) ∧
    ∀ position scope scope' segment index,
      program.lines[position]? = some ⟨scope, .push segment index⟩ →
      program.lines[position + 1]? = some ⟨scope', .pop segment index⟩ →
      ∀ (ram : Memory) (s : Nat), peek ram 0 = word s → 16 ≤ s → s < ramSize →
        ∃ cell, segment.cell? scope.unit index image ram = some cell ∧
          (cell < ramSize → image.Runs (program.address settings position)
            (program.lineCode settings position ⟨scope, .push segment index⟩ ++
              program.lineCode settings (position + 1) ⟨scope', .pop segment index⟩) ram
            (poke ram s (peek ram cell))) := by
  have loaded := Loaded.of_compile h loads
  refine ⟨?_, ?_, ?_⟩
  · intro position scope segment index line ram s sp _ hs
    exact ⟨loaded.cell?_eq_none_iff (List.mem_of_getElem? line) (.inl rfl) ram,
      loaded.runs_push line sp hs⟩
  · intro position scope segment index line ram s sp low high
    obtain ⟨t, rfl⟩ : ∃ t, s = t + 1 := ⟨s - 1, by omega⟩
    obtain ⟨cell, named⟩ := loaded.exists_cell line ram
    exact ⟨cell, named, loaded.runs_pop line sp (by omega) high named⟩
  · intro position scope scope' segment index push pop ram s sp low hs
    obtain rfl := loaded.scope_of_behind push pop
    obtain ⟨cell, named⟩ := loaded.exists_cell pop ram
    exact ⟨cell, named, loaded.runs_push_pop push pop sp low hs named⟩

/-- A program that pushes a local variable and pops it again. -/
def porter : Program :=
  [⟨"Main", [.function "main" 0, .push .locals 2, .pop .locals 2, .push .constant 1, .ret]⟩]

/-- The base of the local variables lies so high that the variable with index 2 is the stack pointer
itself: pushing and popping it writes the pointer back as it was. -/
theorem porter_transfers_exact :
    ∃ compiled image, compile ⟨"main", 256, 2⟩ porter = .ok compiled ∧
      Image.ofCode compiled.code = .ok image ∧
      let ram := poke (poke Computer.initial.ram 0 (word 300)) 1 (word 65534)
      Segment.cell? .locals "Main" 2 image ram = some 0 ∧
        image.Runs (porter.address ⟨"main", 256, 2⟩ 1)
          (porter.lineCode ⟨"main", 256, 2⟩ 1 ⟨⟨"Main", "main"⟩, .push .locals 2⟩ ++
            porter.lineCode ⟨"main", 256, 2⟩ 2 ⟨⟨"Main", "main"⟩, .pop .locals 2⟩) ram
          (poke ram 300 (word 300)) := by
  have accepted : ((compile ⟨"main", 256, 2⟩ porter).toOption.bind fun compiled =>
      (Image.ofCode compiled.code).toOption).isSome = true := by
    decide +kernel
  obtain ⟨image, accepted⟩ := Option.isSome_iff_exists.mp accepted
  obtain ⟨compiled, h, loads⟩ := Option.bind_eq_some_iff.mp accepted
  rw [toOption_eq_some_iff] at h loads
  refine ⟨compiled, image, h, loads, ?_⟩
  have registers : 1 < ramSize := by decide
  intro ram
  have sp : peek ram 0 = word 300 := by simp (disch := omega) [ram]
  have lcl : peek ram 1 = word 65534 := by simp (disch := omega) [ram]
  obtain ⟨cell, named, runs⟩ := (compiled_transfers_exact h loads).2.2 1 _ _ .locals 2 rfl rfl ram 300
    sp (by decide) (by decide)
  have zero : Segment.cell? .locals "Main" 2 image ram = some 0 := by
    rw [Segment.cell?, lcl]
    rfl
  obtain rfl := Option.some.inj (named.symm.trans zero)
  rw [sp] at runs
  exact ⟨zero, runs (by decide)⟩

end Program

end HackVM
