import Mathlib
import HackVM.Proofs.Acceptance

/-!
# Offences

A check that goes through items in order stops at the first one that offends, where an offence may depend on
the items in front. `Foremost` says which item that is, and `bind_eq_error_iff_foremost` joins two checks into
one. What offends among the units, the definitions of functions and the commands is listed apart from the
checks, and each check is shown to refuse exactly that.
-/

namespace HackVM

section Foremost

variable {α : Type}

/-- Behind items that are passed, the first item that offends, with its offence. -/
inductive Foremost (offends : List α → α → Fault → Prop) : List α → List α → Fault → Prop where
  | here {front rest : List α} {item : α} {fault : Fault} (offence : offends front item fault) :
    Foremost offends front (item :: rest) fault
  | later {front rest : List α} {item : α} {fault : Fault} (passes : ∀ other, ¬ offends front item other)
    (first : Foremost offends (front ++ [item]) rest fault) : Foremost offends front (item :: rest) fault

/-- Behind items that are passed, no item offends. -/
def Blameless (offends : List α → α → Fault → Prop) (front items : List α) : Prop :=
  ∀ fault, ¬ Foremost offends front items fault

variable {offends : List α → α → Fault → Prop} {front items rest : List α} {item : α} {fault : Fault}

lemma not_foremost_nil : ¬ Foremost offends front [] fault := by
  intro first
  cases first

lemma foremost_cons_iff :
    Foremost offends front (item :: rest) fault ↔
      offends front item fault ∨
        (∀ other, ¬ offends front item other) ∧ Foremost offends (front ++ [item]) rest fault := by
  constructor
  · intro foremost
    cases foremost with
    | here offence => exact .inl offence
    | later passes first => exact .inr ⟨passes, first⟩
  · rintro (offence | ⟨passes, first⟩)
    · exact .here offence
    · exact .later passes first

lemma foremost_singleton_iff : Foremost offends front [item] fault ↔ offends front item fault := by
  simp [foremost_cons_iff, not_foremost_nil]

lemma blameless_cons_iff :
    Blameless offends front (item :: rest) ↔
      (∀ other, ¬ offends front item other) ∧ Blameless offends (front ++ [item]) rest := by
  constructor
  · intro blameless
    have passes : ∀ other, ¬ offends front item other := fun other offence => blameless other (.here offence)
    exact ⟨passes, fun other first => blameless other (.later passes first)⟩
  · rintro ⟨passes, blameless⟩ other first
    cases first with
    | here offence => exact passes other offence
    | later _ first => exact blameless other first

/-- In two lists, the second matters only if no item of the first offends. -/
lemma foremost_append_iff :
    Foremost offends front (items ++ rest) fault ↔
      Foremost offends front items fault ∨
        Blameless offends front items ∧ Foremost offends (front ++ items) rest fault := by
  induction items generalizing front with
  | nil => simp [Blameless, not_foremost_nil]
  | cons item items ih =>
    rw [List.cons_append, foremost_cons_iff, foremost_cons_iff, blameless_cons_iff, ih, List.append_assoc,
      List.singleton_append]
    tauto

end Foremost

section Except

variable {ε ε' α β : Type} {x : Except ε α} {e : ε}

/-- A sequence of two computations fails when the first does, or the second behind it. -/
lemma bind_eq_error_iff {f : α → Except ε β} :
    x >>= f = .error e ↔ x = .error e ∨ ∃ a, x = .ok a ∧ f a = .error e := by
  cases x with
  | error other => simp [bind, Except.bind]
  | ok a => simp [bind, Except.bind]

/-- What cannot fail behind a computation does not matter to its failure. -/
lemma bind_eq_error_iff_of_ok {f : α → Except ε β} (total : ∀ a, ∃ b, f a = .ok b) :
    x >>= f = .error e ↔ x = .error e := by
  rw [bind_eq_error_iff, or_iff_left]
  rintro ⟨a, _, h⟩
  obtain ⟨b, e⟩ := total a
  cases e.symm.trans h

lemma map_eq_error_iff {f : α → β} : f <$> x = .error e ↔ x = .error e := by
  cases x with
  | error other => simp [Functor.map, Except.map]
  | ok a => simp [Functor.map, Except.map]

lemma mapError_eq_error_iff {f : ε → ε'} {e : ε'} :
    x.mapError f = .error e ↔ ∃ cause, x = .error cause ∧ e = f cause := by
  cases x with
  | error other => simp [Except.mapError, eq_comm]
  | ok a => simp [Except.mapError]

/-- A computation has a result unless it fails. -/
lemma exists_ok_iff : (∃ a, x = .ok a) ↔ ∀ e, x ≠ .error e := by
  cases x with
  | error other => simp
  | ok a => simp

end Except

section Passes

variable {α β γ : Type} {offends : List α → α → Fault → Prop} {front items rest : List α} {fault : Fault}
  {x : Except Fault β}

/-- A pass that stops at the first item which offends succeeds if none does. -/
lemma exists_ok_iff_blameless (h : ∀ fault, x = .error fault ↔ Foremost offends front items fault) :
    (∃ result, x = .ok result) ↔ Blameless offends front items := by
  rw [exists_ok_iff]
  exact forall_congr' fun fault => not_congr (h fault)

/-- What follows a pass matters only if no item of the pass offends. -/
lemma bind_eq_error_iff_or {f : β → Except Fault γ} {other : Prop}
    (first : ∀ fault, x = .error fault ↔ Foremost offends front items fault)
    (second : ∀ result, x = .ok result → (f result = .error fault ↔ other)) :
    x >>= f = .error fault ↔
      Foremost offends front items fault ∨ Blameless offends front items ∧ other := by
  rw [bind_eq_error_iff, first, ← exists_ok_iff_blameless first]
  apply or_congr_right
  constructor
  · rintro ⟨result, found, h⟩
    exact ⟨⟨result, found⟩, (second result found).mp h⟩
  · rintro ⟨⟨result, found⟩, h⟩
    exact ⟨result, found, (second result found).mpr h⟩

/-- Two passes, one behind the other, stop at the first item of both that offends. -/
lemma bind_eq_error_iff_foremost {f : β → Except Fault γ}
    (first : ∀ fault, x = .error fault ↔ Foremost offends front items fault)
    (second : ∀ result, x = .ok result →
      (f result = .error fault ↔ Foremost offends (front ++ items) rest fault)) :
    x >>= f = .error fault ↔ Foremost offends front (items ++ rest) fault := by
  rw [foremost_append_iff]
  exact bind_eq_error_iff_or first second

/-- A step for one item, and a pass over the rest. -/
lemma bind_eq_error_iff_foremost_cons {item : α} {f : β → Except Fault γ}
    (step : ∀ fault, x = .error fault ↔ offends front item fault)
    (second : ∀ result, x = .ok result →
      (f result = .error fault ↔ Foremost offends (front ++ [item]) rest fault)) :
    x >>= f = .error fault ↔ Foremost offends front (item :: rest) fault := by
  rw [← List.singleton_append]
  apply bind_eq_error_iff_foremost _ second
  intro other
  rw [step, foremost_singleton_iff]

end Passes

variable {fault : Fault} {settings : Settings}

/-- Settings that can be used. -/
structure Settings.Usable (settings : Settings) : Prop where
  stackBase : settings.stackBase ≤ maxImmediate
  entryName : Name.Legal settings.entryPoint

lemma Name.check_eq_error_iff {name : String} {cause : NameFault} :
    Name.check name = .error cause ↔ Name.fault? name = some cause := by
  rw [Name.check]
  cases Name.fault? name with
  | none => simp
  | some other => simp

lemma Settings.check_eq_error_iff : settings.check = .error fault ↔
    (maxImmediate < settings.stackBase ∧ fault = .invalidSettings (.stackBase settings.stackBase)) ∨
    (settings.stackBase ≤ maxImmediate ∧ ∃ cause, Name.fault? settings.entryPoint = some cause ∧
      fault = .invalidSettings (.entryPoint cause)) := by
  rw [Settings.check]
  split_ifs with beyond
  · simp [beyond, UInt16.not_le.mpr beyond, eq_comm]
  · rw [mapError_eq_error_iff]
    simp [beyond, UInt16.not_lt.mp beyond, Name.check_eq_error_iff]

lemma Settings.check_eq_ok_iff_usable : settings.check = .ok () ↔ settings.Usable := by
  rw [Program.check_settings_eq_ok_iff]
  exact ⟨fun h => ⟨h.1, h.2⟩, fun h => ⟨h.stackBase, h.entryName⟩⟩

/-- A unit offends by its name alone, or as the second unit of a name. -/
inductive SourceUnit.Offends (front : List SourceUnit) (unit : SourceUnit) : Fault → Prop where
  | name {cause : UnitNameFault} (illegal : nameFault? unit.name = some cause) :
    Offends front unit (.invalidUnitName unit.name cause)
  | duplicate (legal : LegalName unit.name) (earlier : unit.name ∈ front.map SourceUnit.name) :
    Offends front unit (.duplicateUnit unit.name)

/-- The check of one unit's name, given the names in front of it. -/
def SourceUnit.screen (earlier : List String) (unit : SourceUnit) : Except Fault Unit :=
  match nameFault? unit.name with
  | some cause => .error (.invalidUnitName unit.name cause)
  | none => if unit.name ∈ earlier then .error (.duplicateUnit unit.name) else .ok ()

/-- A unit is refused if it offends. -/
lemma SourceUnit.screen_eq_error_iff {front : List SourceUnit} {earlier : List String} {unit : SourceUnit}
    (h : ∀ name, name ∈ earlier ↔ name ∈ front.map SourceUnit.name) :
    unit.screen earlier = .error fault ↔ unit.Offends front fault := by
  rw [screen]
  constructor
  · intro refused
    cases named : nameFault? unit.name with
    | some cause =>
      rw [named] at refused
      cases refused
      exact .name named
    | none =>
      rw [named] at refused
      dsimp only at refused
      split_ifs at refused with again
      cases refused
      exact .duplicate (nameFault?_eq_none_iff.mp named) ((h _).mp again)
  · intro offence
    cases offence with
    | name illegal => rw [illegal]
    | duplicate legal again =>
      rw [nameFault?_eq_none_iff.mpr legal]
      exact if_pos ((h _).mpr again)

lemma Program.checkUnitNames_cons (earlier : List String) (unit : SourceUnit) (rest : Program) :
    checkUnitNames earlier (unit :: rest) =
      unit.screen earlier >>= fun _ => checkUnitNames (unit.name :: earlier) rest := by
  rw [checkUnitNames, SourceUnit.screen]
  cases SourceUnit.nameFault? unit.name with
  | some cause => rfl
  | none => by_cases again : unit.name ∈ earlier <;> simp [again, bind, Except.bind]

/-- The check of the units stops at the first one that offends. -/
lemma Program.checkUnitNames_eq_error_iff {earlier : List String} {front : List SourceUnit}
    {program : Program} (h : ∀ name, name ∈ earlier ↔ name ∈ front.map SourceUnit.name) :
    checkUnitNames earlier program = .error fault ↔ Foremost SourceUnit.Offends front program fault := by
  induction program generalizing earlier front with
  | nil => simp [checkUnitNames, not_foremost_nil]
  | cons unit rest ih =>
    rw [checkUnitNames_cons]
    apply bind_eq_error_iff_foremost_cons
    · exact fun other => SourceUnit.screen_eq_error_iff h
    · intro _ _
      apply ih
      intro name
      simp [h, or_comm]

/-- The places where functions of a unit are defined, from a position on. -/
def SourceUnit.definitionSites (unit : String) (position : Nat) (commands : List Command) : List Site :=
  (commands.zipIdx position).filterMap fun entry =>
    entry.1.defines?.map fun name => ⟨⟨unit, name⟩, entry.2⟩

/-- The places where functions of a program are defined, in order. -/
def Program.definitionSites (program : Program) : List Site :=
  program.flatMap fun unit => SourceUnit.definitionSites unit.name 0 unit.commands

/-- The definition of a function offends by the name of the function alone, or as the second one of a
name. -/
inductive Site.Redefines (front : List Site) (site : Site) : Fault → Prop where
  | name {cause : NameFault} (illegal : Name.fault? site.scope.function = some cause) :
    Redefines front site (site.malformed (.name cause))
  | duplicate {first : Site} (legal : Name.Legal site.scope.function) (earlier : first ∈ front)
    (same : first.scope.function = site.scope.function) :
    Redefines front site
      (.functionRedefinition site.scope.function first.scope.unit site.scope.unit)

/-- A ledger that knows the functions defined at given places, each with a name of its own. -/
structure Ledger.Records (ledger : Ledger) (front : List Site) : Prop where
  functions : ledger.functions = front.map fun site => (site.scope.function, site.scope.unit)
  distinct : (ledger.functions.map Prod.fst).Nodup

lemma Ledger.Records.lookup_eq_some_iff {ledger : Ledger} {front : List Site} (h : ledger.Records front)
    {name unit : String} : ledger.functions.lookup name = some unit ↔
      ∃ site ∈ front, site.scope.function = name ∧ site.scope.unit = unit := by
  constructor
  · intro found
    have entry := mem_of_lookup found
    rw [h.functions] at entry
    obtain ⟨site, hs, e⟩ := List.mem_map.mp entry
    exact ⟨site, hs, congrArg Prod.fst e, congrArg Prod.snd e⟩
  · rintro ⟨site, hs, rfl, rfl⟩
    apply lookup_of_mem h.distinct
    rw [h.functions]
    exact List.mem_map_of_mem hs

namespace Site

variable {site : Site} {ledger ledger' : Ledger} {front : List Site} {name : String}

lemma checkName_eq_error_iff : site.checkName name = .error fault ↔
    ∃ cause, Name.fault? name = some cause ∧ fault = site.malformed (.name cause) := by
  rw [checkName, mapError_eq_error_iff]
  simp only [Name.check_eq_error_iff]

/-- The definition of a function at a site. -/
def define (site : Site) (ledger : Ledger) : Except Fault Ledger := do
  site.checkName site.scope.function
  ledger.define site.scope.function site.scope.unit

/-- The definition of a function is refused if it offends. -/
lemma define_eq_error_iff (h : ledger.Records front) :
    site.define ledger = .error fault ↔ site.Redefines front fault := by
  rw [define, bind_eq_error_iff, checkName_eq_error_iff, Ledger.define]
  constructor
  · rintro (⟨cause, illegal, rfl⟩ | ⟨_, checked, refused⟩)
    · exact .name illegal
    · cases found : ledger.functions.lookup site.scope.function with
      | none =>
        rw [found] at refused
        cases refused
      | some unit =>
        rw [found] at refused
        cases refused
        obtain ⟨first, earlier, same, rfl⟩ := h.lookup_eq_some_iff.mp found
        exact .duplicate (checkName_eq_ok_iff.mp checked) earlier same
  · intro offence
    cases offence with
    | name illegal => exact .inl ⟨_, illegal, rfl⟩
    | duplicate legal earlier same =>
      refine .inr ⟨(), checkName_eq_ok_iff.mpr legal, ?_⟩
      rw [h.lookup_eq_some_iff.mpr ⟨_, earlier, same, rfl⟩]

lemma define_ok (h : ledger.Records front) (defined : site.define ledger = .ok ledger') :
    ledger'.Records (front ++ [site]) := by
  obtain ⟨_, -, defined⟩ := bind_eq_ok_iff.mp defined
  obtain ⟨new, rfl⟩ := Program.define_eq_ok_iff.mp defined
  constructor
  · rw [h.functions, List.map_append]
    rfl
  · rw [List.map_append]
    exact List.concat_eq_append ▸ List.Nodup.concat new h.distinct

end Site

namespace Program

variable {unit : String} {commands : List Command} {position : Nat} {ledger ledger' : Ledger}
  {front : List Site} {program : Program}

lemma definitionSites_cons (command : Command) :
    SourceUnit.definitionSites unit position (command :: commands) =
      (command.defines?.map fun name => ⟨⟨unit, name⟩, position⟩).toList ++
        SourceUnit.definitionSites unit (position + 1) commands := by
  rw [SourceUnit.definitionSites, List.zipIdx_cons, List.filterMap_cons]
  cases command.defines? <;> rfl

/-- The definitions of a program stop at the first one that offends. -/
lemma foldlM_define_eq_error_iff {sites : List Site} (h : ledger.Records front) :
    sites.foldlM (fun ledger site => Site.define site ledger) ledger = .error fault ↔
      Foremost Site.Redefines front sites fault := by
  induction sites generalizing ledger front with
  | nil => simp [not_foremost_nil, pure, Except.pure]
  | cons site rest ih =>
    rw [List.foldlM_cons]
    apply bind_eq_error_iff_foremost_cons
    · exact fun other => Site.define_eq_error_iff h
    · exact fun next defined => ih (Site.define_ok h defined)

/-- The functions of a unit are defined one by one. -/
lemma defineFunctions_eq_foldlM (unit : String) (commands : List Command) (position : Nat) (ledger : Ledger) :
    defineFunctions unit commands position ledger =
      (SourceUnit.definitionSites unit position commands).foldlM
        (fun ledger site => Site.define site ledger) ledger := by
  induction commands generalizing position ledger with
  | nil => rfl
  | cons command rest ih =>
    rw [definitionSites_cons]
    cases command with
    | function name locals =>
      show _ = List.foldlM _ ledger
        ((⟨⟨unit, name⟩, position⟩ : Site) :: SourceUnit.definitionSites unit (position + 1) rest)
      rw [List.foldlM_cons, Site.define, bind_assoc]
      simp only [← ih]
      rfl
    | _ => exact ih (position + 1) ledger

lemma defineAll_eq_foldlM (program : Program) (ledger : Ledger) :
    defineAll program ledger =
      program.definitionSites.foldlM (fun ledger site => Site.define site ledger) ledger := by
  induction program generalizing ledger with
  | nil => rfl
  | cons unit rest ih =>
    rw [defineAll, definitionSites, List.flatMap_cons, List.foldlM_append, defineFunctions_eq_foldlM]
    simp only [ih]
    rfl

lemma defineAll_eq_error_iff :
    defineAll program .empty = .error fault ↔ Foremost Site.Redefines [] program.definitionSites fault := by
  rw [defineAll_eq_foldlM]
  exact foldlM_define_eq_error_iff ⟨rfl, List.nodup_nil⟩

end Program

/-- What is wrong with a command, wherever it stands inside a function. -/
inductive Command.Malformed : Command → Malformation → Prop where
  | push {segment : Segment} {index : UInt16} (beyond : segment.maxIndex < index) :
    Malformed (.push segment index) (.index ⟨segment, index⟩)
  | pop {segment : Segment} {index : UInt16} (beyond : segment.maxIndex < index) :
    Malformed (.pop segment index) (.index ⟨segment, index⟩)
  | popConstant {index : UInt16} (inside : index ≤ Segment.constant.maxIndex) :
    Malformed (.pop .constant index) .popConstant
  | label {name : String} {cause : NameFault} (illegal : Name.fault? name = some cause) :
    Malformed (.label name) (.name cause)
  | goto {name : String} {cause : NameFault} (illegal : Name.fault? name = some cause) :
    Malformed (.goto name) (.name cause)
  | ifGoto {name : String} {cause : NameFault} (illegal : Name.fault? name = some cause) :
    Malformed (.ifGoto name) (.name cause)
  | function {name : String} {locals : UInt16} (beyond : maxImmediate < locals) :
    Malformed (.function name locals) (.localCount locals)
  | call {name : String} {arguments : UInt16} (beyond : maxImmediate < arguments) :
    Malformed (.call name arguments) (.argumentCount arguments)

/-- How a command offends at a site, given the labels declared in front of it in its function, the
functions of the program and the static variables used in front of it. -/
inductive Command.Offends (declared defined : List String) (statics : List (String × UInt16)) (site : Site) :
    Command → Fault → Prop where
  | malformed {command : Command} {cause : Malformation} (h : command.Malformed cause) :
    Offends declared defined statics site command (site.malformed cause)
  | duplicateLabel {name : String} (legal : Name.Legal name) (earlier : name ∈ declared) :
    Offends declared defined statics site (.label name) (.duplicateLabel site.scope name)
  | undefinedFunction {name : String} {arguments : UInt16} (fits : arguments ≤ maxImmediate)
    (undefined : name ∉ defined) :
    Offends declared defined statics site (.call name arguments) (.undefinedFunction site.scope name)
  | staticOverflow {command : Command} {index : UInt16} (formed : ∀ cause, ¬ command.Malformed cause)
    (uses : command.static? = some index) (new : (site.scope.unit, index) ∉ statics)
    (full : staticLimit ≤ statics.toFinset.card) :
    Offends declared defined statics site command (.staticOverflow site.scope.unit index)

/-- A command that declares no label, calls no function and uses no static variable offends by its form
alone. -/
lemma Command.offends_iff_malformed {declared defined : List String} {statics : List (String × UInt16)}
    {site : Site} {command : Command} (label : command.declares? = none) (calls : command.callSites = 0)
    (static : command.static? = none) : command.Offends declared defined statics site fault ↔
      ∃ cause, command.Malformed cause ∧ fault = site.malformed cause := by
  constructor
  · intro offence
    cases offence with
    | malformed h => exact ⟨_, h, rfl⟩
    | duplicateLabel _ _ => cases label
    | undefinedFunction _ _ => cases calls
    | staticOverflow _ uses _ _ => cases static.symm.trans uses
  · rintro ⟨cause, h, rfl⟩
    exact .malformed h

/-- Of the static variables used in front of a command, it matters only which they are. -/
lemma Command.Offends.of_toFinset {declared defined : List String} {statics statics' : List (String × UInt16)}
    {site : Site} {command : Command} (same : statics'.toFinset = statics.toFinset)
    (h : command.Offends declared defined statics site fault) :
    command.Offends declared defined statics' site fault := by
  cases h with
  | malformed h => exact .malformed h
  | duplicateLabel legal earlier => exact .duplicateLabel legal earlier
  | undefinedFunction fits undefined => exact .undefinedFunction fits undefined
  | staticOverflow formed uses new full =>
    apply Offends.staticOverflow formed uses
    · rwa [← List.mem_toFinset, same, List.mem_toFinset]
    · rwa [same]

namespace Site

variable {site : Site} {ledger : Ledger} {segment : Segment} {index : UInt16} {name : String}
  {inlineMax : UInt16}

lemma resolve_eq_error_iff : site.resolve segment index = .error fault ↔
    segment.maxIndex < index ∧ fault = site.malformed (.index ⟨segment, index⟩) := by
  rw [resolve, mapError_eq_error_iff]
  unfold Segment.resolve
  split_ifs with beyond
  · simp [beyond, eq_comm]
  · simp [beyond]

lemma reserve_eq_error_iff (distinct : ledger.statics.Nodup) :
    site.reserve segment index ledger = .error fault ↔
      segment = .statics ∧ (site.scope.unit, index) ∉ ledger.statics ∧
        staticLimit ≤ ledger.statics.toFinset.card ∧ fault = .staticOverflow site.scope.unit index := by
  rw [List.toFinset_card_of_nodup distinct, reserve.eq_def]
  cases segment with
  | statics =>
    rw [Ledger.reserve_eq]
    split_ifs with room
    · constructor
      · intro h
        cases h
      · rintro ⟨-, fresh, full, -⟩
        exact absurd (room.resolve_left fresh) (Nat.not_lt.mpr full)
    · obtain ⟨fresh, full⟩ := not_or.mp room
      simp [fresh, Nat.le_of_not_lt full, eq_comm]
  | _ => simp

/-- A segment resolves an index at a site unless it lies beyond the segment. -/
lemma exists_resolve (site : Site) (inside : ¬ segment.maxIndex < index) :
    ∃ location, site.resolve segment index = .ok location := by
  obtain ⟨location, resolved⟩ := (Segment.resolve_isOk_iff segment site.scope.unit).mpr
    (UInt16.not_lt.mp inside)
  exact ⟨location, resolve_eq_ok_iff.mpr resolved⟩

lemma not_beyond {location : Location} (resolved : site.resolve segment index = .ok location) :
    ¬ segment.maxIndex < index := by
  have inside := (Segment.resolve_isOk_iff segment site.scope.unit).mp
    ⟨location, resolve_eq_ok_iff.mp resolved⟩
  exact UInt16.not_lt.mpr inside

/-- A push is refused if it offends. -/
lemma lowerPush_eq_error_iff (distinct : ledger.statics.Nodup) (declared defined : List String) :
    site.lowerPush segment index ledger = .error fault ↔
      (Command.push segment index).Offends declared defined ledger.statics site fault := by
  rw [lowerPush, bind_eq_error_iff, resolve_eq_error_iff]
  constructor
  · rintro (⟨beyond, rfl⟩ | ⟨location, resolved, h⟩)
    · exact .malformed (.push beyond)
    · obtain h | ⟨_, _, h⟩ := bind_eq_error_iff.mp h
      · obtain ⟨rfl, new, full, rfl⟩ := (reserve_eq_error_iff distinct).mp h
        refine .staticOverflow ?_ rfl new full
        intro cause malformed
        cases malformed with
        | push beyond => exact not_beyond resolved beyond
      · cases h
  · intro offence
    cases offence with
    | malformed h =>
      cases h with
      | push beyond => exact .inl ⟨beyond, rfl⟩
    | staticOverflow formed uses new full =>
      obtain ⟨location, resolved⟩ := site.exists_resolve fun beyond => formed _ (.push beyond)
      refine .inr ⟨location, resolved, bind_eq_error_iff.mpr (.inl ?_)⟩
      cases segment <;> cases uses
      exact (reserve_eq_error_iff distinct).mpr ⟨rfl, new, full, rfl⟩

/-- A pop is refused if it offends. -/
lemma lowerPop_eq_error_iff (distinct : ledger.statics.Nodup) (declared defined : List String) :
    site.lowerPop segment index ledger = .error fault ↔
      (Command.pop segment index).Offends declared defined ledger.statics site fault := by
  rw [lowerPop, bind_eq_error_iff, resolve_eq_error_iff]
  constructor
  · rintro (⟨beyond, rfl⟩ | ⟨location, resolved, h⟩)
    · exact .malformed (.pop beyond)
    · cases place : location.popCode? with
      | none =>
        rw [place] at h
        cases h
        obtain rfl := (popCode?_eq_none_iff (resolve_eq_ok_iff.mp resolved)).mp place
        exact .malformed (.popConstant (UInt16.not_lt.mp (not_beyond resolved)))
      | some code =>
        rw [place] at h
        obtain h | ⟨_, _, h⟩ := bind_eq_error_iff.mp h
        · obtain ⟨rfl, new, full, rfl⟩ := (reserve_eq_error_iff distinct).mp h
          refine .staticOverflow ?_ rfl new full
          intro cause malformed
          cases malformed with
          | pop beyond => exact not_beyond resolved beyond
        · cases h
  · intro offence
    cases offence with
    | malformed h =>
      cases h with
      | pop beyond => exact .inl ⟨beyond, rfl⟩
      | popConstant inside =>
        obtain ⟨location, resolved⟩ := site.exists_resolve (UInt16.not_lt.mpr inside)
        refine .inr ⟨location, resolved, ?_⟩
        rw [(popCode?_eq_none_iff (resolve_eq_ok_iff.mp resolved)).mpr rfl]
        rfl
    | staticOverflow formed uses new full =>
      obtain ⟨location, resolved⟩ := site.exists_resolve fun beyond => formed _ (.pop beyond)
      refine .inr ⟨location, resolved, ?_⟩
      cases segment <;> cases uses
      cases place : location.popCode? with
      | none => cases (popCode?_eq_none_iff (resolve_eq_ok_iff.mp resolved)).mp place
      | some code =>
        exact bind_eq_error_iff.mpr (.inl ((reserve_eq_error_iff distinct).mpr ⟨rfl, new, full, rfl⟩))

/-- A label is refused if it offends. -/
lemma lowerLabel_eq_error_iff (defined : List String) (statics : List (String × UInt16)) :
    site.lowerLabel name ledger = .error fault ↔
      (Command.label name).Offends ledger.labels.declared defined statics site fault := by
  rw [lowerLabel, bind_eq_error_iff, checkName_eq_error_iff]
  constructor
  · rintro (⟨cause, illegal, rfl⟩ | ⟨_, checked, h⟩)
    · exact .malformed (.label illegal)
    · obtain h | ⟨_, _, h⟩ := bind_eq_error_iff.mp h
      · rw [Ledger.declareLabel] at h
        split_ifs at h with again
        cases h
        exact .duplicateLabel (checkName_eq_ok_iff.mp checked) (List.contains_iff_mem.mp again)
      · cases h
  · intro offence
    cases offence with
    | malformed h =>
      cases h with
      | label illegal => exact .inl ⟨_, illegal, rfl⟩
    | duplicateLabel legal earlier =>
      refine .inr ⟨(), checkName_eq_ok_iff.mpr legal, bind_eq_error_iff.mpr (.inl ?_)⟩
      rw [Ledger.declareLabel, if_pos (List.contains_iff_mem.mpr earlier)]
    | staticOverflow _ uses _ _ => cases uses

/-- A command that only refers to a label is refused for its name alone, whatever its code is. -/
lemma refer_eq_error_iff {result : Code × Ledger} :
    (do site.checkName name; return result) = Except.error fault ↔
      ∃ cause, Name.fault? name = some cause ∧ fault = site.malformed (.name cause) := by
  rw [← checkName_eq_error_iff]
  exact bind_eq_error_iff_of_ok fun _ => ⟨_, rfl⟩

lemma lowerFunction_eq_error_iff {locals : UInt16} :
    site.lowerFunction locals inlineMax ledger = .error fault ↔
      maxImmediate < locals ∧ fault = site.malformed (.localCount locals) := by
  rw [lowerFunction]
  split_ifs with beyond
  · simp [beyond, eq_comm]
  · simp [beyond]

/-- A call is refused if it offends. -/
lemma lowerCall_eq_error_iff {arguments : UInt16} (declared : List String)
    (statics : List (String × UInt16)) : site.lowerCall name arguments ledger = .error fault ↔
      (Command.call name arguments).Offends declared (ledger.functions.map Prod.fst) statics site fault := by
  rw [lowerCall]
  constructor
  · intro h
    split_ifs at h with beyond
    · cases h
      exact .malformed (.call beyond)
    · cases found : ledger.entry? name with
      | none =>
        rw [found] at h
        cases h
        exact .undefinedFunction (UInt16.not_lt.mp beyond) (Ledger.entry?_eq_none_iff.mp found)
      | some target =>
        rw [found] at h
        cases h
  · intro offence
    cases offence with
    | malformed h =>
      cases h with
      | call beyond => exact if_pos beyond
    | undefinedFunction fits undefined =>
      rw [if_neg (UInt16.not_lt.mpr fits), Ledger.entry?_eq_none_iff.mpr undefined]
    | staticOverflow _ uses _ _ => cases uses

/-- A command is refused if it offends, and the fault says how. -/
lemma lower_eq_error_iff {command : Command} (distinct : ledger.statics.Nodup) :
    site.lower inlineMax command ledger = .error fault ↔
      command.Offends ledger.labels.declared (ledger.functions.map Prod.fst) ledger.statics site fault := by
  cases command with
  | push segment index => exact lowerPush_eq_error_iff distinct _ _
  | pop segment index => exact lowerPop_eq_error_iff distinct _ _
  | label name => exact lowerLabel_eq_error_iff _ _
  | call name arguments => exact lowerCall_eq_error_iff _ _
  | goto name =>
    rw [Command.offends_iff_malformed rfl rfl rfl]
    refine refer_eq_error_iff.trans ⟨?_, ?_⟩
    · rintro ⟨cause, illegal, rfl⟩
      exact ⟨_, .goto illegal, rfl⟩
    · rintro ⟨_, malformed, rfl⟩
      cases malformed with
      | goto illegal => exact ⟨_, illegal, rfl⟩
  | ifGoto name =>
    rw [Command.offends_iff_malformed rfl rfl rfl]
    refine refer_eq_error_iff.trans ⟨?_, ?_⟩
    · rintro ⟨cause, illegal, rfl⟩
      exact ⟨_, .ifGoto illegal, rfl⟩
    · rintro ⟨_, malformed, rfl⟩
      cases malformed with
      | ifGoto illegal => exact ⟨_, illegal, rfl⟩
  | function name locals =>
    rw [Command.offends_iff_malformed rfl rfl rfl]
    refine lowerFunction_eq_error_iff.trans ⟨?_, ?_⟩
    · rintro ⟨beyond, rfl⟩
      exact ⟨_, .function beyond, rfl⟩
    · rintro ⟨_, malformed, rfl⟩
      cases malformed with
      | function beyond => exact ⟨beyond, rfl⟩
  | operate operation =>
    rw [Command.offends_iff_malformed rfl rfl rfl]
    exact iff_of_false (by intro h; cases h) (by rintro ⟨_, ⟨⟩, _⟩)
  | ret =>
    rw [Command.offends_iff_malformed rfl rfl rfl]
    exact iff_of_false (by intro h; cases h) (by rintro ⟨_, ⟨⟩, _⟩)

end Site

end HackVM
