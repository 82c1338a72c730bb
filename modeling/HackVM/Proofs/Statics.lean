import Mathlib
import HackVM.Proofs.Referents

/-!
# The cells of static variables

Loading gives every symbol without another meaning a cell of its own. In the code of a compiled program
these symbols are those of the static variables that the program uses, so its static variables, and
nothing else, take the cells from the first static cell on, in the order of their first use.
-/

namespace HackVM

section Noted

variable {α β : Type} [DecidableEq α] [DecidableEq β]

lemma exists_noted_append (found items : List α) : ∃ more, noted found items = found ++ more := by
  induction items generalizing found with
  | nil => exact ⟨[], (List.append_nil _).symm⟩
  | cons item items ih =>
    obtain ⟨more, e⟩ := ih (noted found [item])
    rw [noted_cons, e, noted_singleton]
    split_ifs
    · exact ⟨more, rfl⟩
    · exact ⟨item :: more, by simp⟩

/-- Items that are told apart by their images are noted as their images are. -/
lemma noted_map {f : α → β} (inj : Function.Injective f) (found items : List α) :
    noted (found.map f) (items.map f) = (noted found items).map f := by
  induction items generalizing found with
  | nil => rfl
  | cons item items ih =>
    have head : noted (found.map f) [f item] = (noted found [item]).map f := by
      rw [noted_singleton, noted_singleton]
      have same : f item ∈ found.map f ↔ item ∈ found := List.mem_map_of_injective inj
      by_cases hm : item ∈ found
      · rw [if_pos hm, if_pos (same.mpr hm)]
      · rw [if_neg hm, if_neg (mt same.mp hm), List.map_append]
        rfl
    rw [List.map_cons, noted_cons, head, ih, ← noted_cons]

lemma idxOf_map {f : α → β} (inj : Function.Injective f) (items : List α) (item : α) :
    (items.map f).idxOf (f item) = items.idxOf item := by
  induction items with
  | nil => rfl
  | cons other rest ih =>
    have same : (f other == f item) = (other == item) := by
      rw [Bool.eq_iff_iff, beq_iff_eq, beq_iff_eq, inj.eq_iff]
    rw [List.map_cons, List.idxOf_cons, List.idxOf_cons, ih, same]

lemma idxOf?_of_mem {items : List α} {item : α} (h : item ∈ items) :
    items.idxOf? item = some (items.idxOf item) := by
  obtain ⟨index, e⟩ := Option.isSome_iff_exists.mp (List.isSome_idxOf?.mpr h)
  rw [List.idxOf_eq_getD_idxOf?, e]
  rfl

/-- An item is noted behind the different ones that come before it. -/
lemma idxOf_noted {items : List α} {item : α} (h : item ∈ items) :
    (noted [] items).idxOf item = (items.takeWhile (· ≠ item)).toFinset.card := by
  obtain ⟨front, rest, rfl, first⟩ := List.eq_append_cons_of_mem h
  have fresh : item ∉ noted [] front := by simpa [mem_noted] using first
  have before : (front ++ item :: rest).takeWhile (· ≠ item) = front := by
    have passes : ∀ other ∈ front, decide (other ≠ item) = true :=
      fun other ho => decide_eq_true fun e => first (e ▸ ho)
    rw [List.takeWhile_append_of_pos passes]
    simp
  -- Nothing that comes later moves what is already noted.
  obtain ⟨more, e⟩ := exists_noted_append (noted [] front ++ [item]) rest
  rw [before, noted_append, noted_cons, noted_singleton, if_neg fresh, e, List.append_assoc,
    List.idxOf_append_of_notMem fresh, ← length_noted_nil]
  simp

/-- Over the items of a list, the number of different ones that come before each counts them off. -/
lemma bijOn_card_takeWhile (items : List α) :
    Set.BijOn (fun item => (items.takeWhile (· ≠ item)).toFinset.card) { item | item ∈ items }
      (Set.Iio (noted [] items).length) := by
  have mem_iff : ∀ item, item ∈ noted [] items ↔ item ∈ items := by simp [mem_noted]
  have place : Set.EqOn (fun item => (noted [] items).idxOf item)
      (fun item => (items.takeWhile (· ≠ item)).toFinset.card) { item | item ∈ items } :=
    fun item mem => idxOf_noted mem
  refine Set.BijOn.congr ⟨?_, ?_, ?_⟩ place
  · intro item mem
    exact List.idxOf_lt_length_of_mem ((mem_iff item).mpr mem)
  · intro item mem other _ same
    exact (List.idxOf_inj ((mem_iff item).mpr mem)).mp same
  · intro index below
    have below : index < (noted [] items).length := below
    refine ⟨(noted [] items)[index], (mem_iff _).mp (List.getElem_mem below), ?_⟩
    exact (nodup_noted List.nodup_nil).idxOf_getElem index below

end Noted

lemma staticSymbol_injective :
    Function.Injective fun cell : String × UInt16 => staticSymbol cell.1 cell.2 :=
  fun _ _ e => Prod.ext (staticSymbol_inj e).1 (staticSymbol_inj e).2

/-- A test that static variables pass and nothing else picks out the symbols of static variables. -/
lemma Referent.filter_name {test : String → Bool} {referents : List Referent}
    (h : ∀ referent ∈ referents, test referent.name = referent.static?.isSome) :
    (referents.map name).filter test =
      (referents.filterMap static?).map fun cell => staticSymbol cell.1 cell.2 := by
  induction referents with
  | nil => rfl
  | cons referent rest ih =>
    have head := h referent List.mem_cons_self
    have ih := ih fun referent hr => h referent (.tail _ hr)
    rw [List.map_cons, List.filter_cons, head, ih]
    cases referent with
    | static unit index => rfl
    | _ => rfl

namespace Program

variable {settings : Settings} {program : Program} {compiled : Compiled} {image : Image}

/-- How many different static variables a program uses before it first uses a given one. -/
def staticRank (program : Program) (unit : String) (index : UInt16) : Nat :=
  (program.statics.takeWhile (· ≠ (unit, index))).toFinset.card

/-- The static cells that are counted are the different static variables of the program. -/
lemma staticCells_eq (h : compile settings program = .ok compiled) :
    compiled.stats.staticCells = (noted [] program.statics).length := by
  obtain ⟨-, -, ledger, entry, body, ledger', h₃, -, h₅, rfl⟩ := compile_eq_ok_iff.mp h
  obtain ⟨-, -, rfl⟩ := defineAll_empty_eq_ok_iff.mp h₃
  obtain ⟨-, passes⟩ := lowerUnits_ok rfl h₅
  have statics : ledger'.statics = noted [] program.statics := statics_eq program ▸ passes.statics
  exact congrArg List.length statics

/-- Among the names of an acceptable program, loading leaves those of static variables without another
value. -/
lemma Accepted.isNone_fixed? (accepted : program.Accepted settings) {referent : Referent}
    (known : program.Knows settings referent) :
    (Image.fixed? ((program.assembly settings).labelTable 0) referent.name).isNone =
      referent.static?.isSome := by
  rw [Image.fixed?, Referent.predefined?_name (accepted.proper_of_knows known), Option.none_or,
    Bool.eq_iff_iff, Option.isNone_iff_eq_none, lookup_eq_none_iff_notMem,
    Code.map_fst_labelTable, accepted.name_mem_labels_iff known, Option.isSome_iff_ne_none]

namespace Loaded

variable (loaded : Loaded settings program image)

include loaded

/-- The variables of a loaded program are its static variables in the order of their first use. -/
lemma vars_eq : image.vars = (noted [] program.statics).map fun cell => staticSymbol cell.1 cell.2 := by
  obtain ⟨-, rfl⟩ := Image.ofCode_eq_ok_iff.mp loaded.loads
  have accepted := loaded.accepted
  rw [Image.variablesOf, Image.distinct_eq_noted, accepted.symbols_assembly,
    Referent.filter_name fun referent hr =>
      accepted.isNone_fixed? (accepted.knows_of_mem_referents hr),
    static?_referents]
  exact noted_map staticSymbol_injective [] program.statics

lemma idxOf_staticSymbol {unit : String} {index : UInt16} (used : program.UsesStatic unit index) :
    image.vars.idxOf (staticSymbol unit index) = program.staticRank unit index := by
  rw [loaded.vars_eq]
  refine (idxOf_map staticSymbol_injective _ (unit, index)).trans ?_
  exact idxOf_noted (mem_statics_iff.mpr used)

/-- Every static variable of a loaded program has its cell behind those that are used before it. -/
lemma variableCell?_static {unit : String} {index : UInt16}
    (used : program.UsesStatic unit index) :
    image.variableCell? (staticSymbol unit index) =
      some (staticBase + program.staticRank unit index) := by
  have listed : staticSymbol unit index ∈ image.vars := by
    rw [loaded.vars_eq]
    exact List.mem_map_of_mem (mem_noted.mpr (.inr (mem_statics_iff.mpr used)))
  rw [Image.variableCell?, idxOf?_of_mem listed, loaded.idxOf_staticSymbol used]
  rfl

/-- The instructions of a loaded program that load the symbol of a static variable load the address of
its cell. -/
lemma value_staticSymbol {unit : String} {index : UInt16} (used : program.UsesStatic unit index) :
    image.value (.symbol (staticSymbol unit index)) =
      word (staticBase + program.staticRank unit index) := by
  have known : program.Knows settings (.static unit index) := mem_statics_iff.mpr used
  have unfixed : Image.fixed? image.labels (staticSymbol unit index) = none := by
    obtain ⟨-, rfl⟩ := Image.ofCode_eq_ok_iff.mp loaded.loads
    exact Option.isNone_iff_eq_none.mp (loaded.accepted.isNone_fixed? known)
  rw [Image.value, Image.operandValue, Image.symbolValue, unfixed,
    loaded.idxOf_staticSymbol used]
  rfl

/-- Only static variables of a loaded program have cells. -/
lemma usesStatic_of_variableCell? {name : String} {address : Nat}
    (h : image.variableCell? name = some address) :
    ∃ unit index, program.UsesStatic unit index ∧ name = staticSymbol unit index := by
  obtain ⟨place, found, -⟩ := Option.map_eq_some_iff.mp h
  have listed : name ∈ image.vars := List.isSome_idxOf?.mp (by rw [found]; rfl)
  rw [loaded.vars_eq] at listed
  obtain ⟨⟨unit, index⟩, noted, rfl⟩ := List.mem_map.mp listed
  rcases mem_noted.mp noted with none | mem
  · cases none
  · exact ⟨unit, index, mem_statics_iff.mp mem, rfl⟩

end Loaded

/-- The static variables of a compiled program take the first static cells, one each. -/
lemma bijOn_staticCell (h : compile settings program = .ok compiled) :
    Set.BijOn (fun cell : String × UInt16 => staticBase + program.staticRank cell.1 cell.2)
      { cell | program.UsesStatic cell.1 cell.2 }
      (Set.Ico staticBase (staticBase + compiled.stats.staticCells)) := by
  have used : { cell : String × UInt16 | program.UsesStatic cell.1 cell.2 } =
      { cell | cell ∈ program.statics } := by
    ext ⟨unit, index⟩
    exact mem_statics_iff.symm
  have shift : Set.BijOn (staticBase + ·) (Set.Iio compiled.stats.staticCells)
      (Set.Ico staticBase (staticBase + compiled.stats.staticCells)) := by
    refine ⟨?_, (add_right_injective staticBase).injOn, ?_⟩
    · intro place below
      exact ⟨Nat.le_add_right _ _, Nat.add_lt_add_left below _⟩
    · rintro address ⟨from_base, below⟩
      exact ⟨address - staticBase, Nat.sub_lt_left_of_lt_add from_base below,
        Nat.add_sub_of_le from_base⟩
  rw [staticCells_eq h] at shift ⊢
  rw [used]
  exact shift.comp (bijOn_card_takeWhile program.statics)

/-- A compiled program whose code fits program memory is loaded, and its variables are the static
variables that it uses. Each has the cell whose place among the static cells is the number of those used
before it, so different ones have different cells, and together they take the first static cells, as many
as were counted. These are at most 240, so all lie below the cell at which a stack starts. -/
theorem compiled_statics_allocated (h : compile settings program = .ok compiled)
    (fits : compiled.code.size ≤ romSize) :
    ∃ image, Image.ofCode compiled.code = .ok image ∧
      (∀ name, (∃ address, image.variableCell? name = some address) ↔
        ∃ unit index, program.UsesStatic unit index ∧ name = staticSymbol unit index) ∧
      (∀ unit index, program.UsesStatic unit index →
        image.variableCell? (staticSymbol unit index) =
            some (16 + program.staticRank unit index) ∧
          image.value (.symbol (staticSymbol unit index)) =
            word (16 + program.staticRank unit index)) ∧
      Set.BijOn (fun cell : String × UInt16 => 16 + program.staticRank cell.1 cell.2)
        { cell | program.UsesStatic cell.1 cell.2 }
        (Set.Ico 16 (16 + compiled.stats.staticCells)) ∧
      compiled.stats.staticCells ≤ 240 ∧
      ∀ name address, image.variableCell? name = some address → 16 ≤ address ∧ address ≤ 255 := by
  have accepted := Accepted.of_compile h
  have code := compile_code h
  obtain ⟨image, loaded⟩ := accepted.exists_loaded (code ▸ fits)
  have cells := bijOn_staticCell h
  have budget : compiled.stats.staticCells ≤ 240 := by
    rw [staticCells_eq h, length_noted_nil]
    exact accepted.staticBudget
  refine ⟨image, code ▸ loaded.loads, ?_, ?_, cells, budget, ?_⟩
  · intro name
    constructor
    · rintro ⟨address, found⟩
      exact loaded.usesStatic_of_variableCell? found
    · rintro ⟨unit, index, used, rfl⟩
      exact ⟨_, loaded.variableCell?_static used⟩
  · intro unit index used
    exact ⟨loaded.variableCell?_static used, loaded.value_staticSymbol used⟩
  · intro name address found
    obtain ⟨unit, index, used, rfl⟩ := loaded.usesStatic_of_variableCell? found
    have inside : 16 + program.staticRank unit index ∈
        Set.Ico 16 (16 + compiled.stats.staticCells) := cells.mapsTo (x := (unit, index)) used
    obtain rfl : 16 + program.staticRank unit index = address :=
      Option.some.inj ((loaded.variableCell?_static used).symm.trans found)
    have below := inside.2
    exact ⟨inside.1, by omega⟩

/-- A program whose units use static variables of the same index, and one of them another in between. -/
def lodgers : Program :=
  [⟨"Main", [.function "main" 0, .push .statics 7, .pop .statics 3, .push .statics 7, .call "help" 0,
      .ret]⟩,
    ⟨"Lib", [.function "help" 0, .pop .statics 7, .push .statics 3, .ret]⟩]

/-- The static variables of the lodgers take four cells in the order of their first use. -/
theorem lodgers_statics_allocated :
    ∃ compiled image, compile ⟨"main", 256, 2⟩ lodgers = .ok compiled ∧
      compiled.code.size ≤ romSize ∧ Image.ofCode compiled.code = .ok image ∧
      compiled.stats.staticCells = 4 ∧
      image.variableCell? (staticSymbol "Main" 7) = some 16 ∧
      image.variableCell? (staticSymbol "Main" 3) = some 17 ∧
      image.variableCell? (staticSymbol "Lib" 7) = some 18 ∧
      image.variableCell? (staticSymbol "Lib" 3) = some 19 := by
  have outcome : ((compile ⟨"main", 256, 2⟩ lodgers).toOption.map fun compiled =>
      decide (compiled.code.size ≤ romSize) && compiled.stats.staticCells == 4) = some true := by
    decide +kernel
  obtain ⟨compiled, h, outcome⟩ := Option.map_eq_some_iff.mp outcome
  rw [toOption_eq_some_iff] at h
  obtain ⟨fits, count⟩ : compiled.code.size ≤ romSize ∧ compiled.stats.staticCells = 4 := by
    simpa using outcome
  obtain ⟨image, loads, -, cell, -⟩ := compiled_statics_allocated h fits
  have used : ∀ cell ∈ lodgers.statics, lodgers.UsesStatic cell.1 cell.2 :=
    fun cell => mem_statics_iff.mp
  exact ⟨compiled, image, h, fits, loads, count,
    (cell "Main" 7 (used ("Main", 7) (by decide))).1,
    (cell "Main" 3 (used ("Main", 3) (by decide))).1,
    (cell "Lib" 7 (used ("Lib", 7) (by decide))).1,
    (cell "Lib" 3 (used ("Lib", 3) (by decide))).1⟩

end Program

end HackVM
