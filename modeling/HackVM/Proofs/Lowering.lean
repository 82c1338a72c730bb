import Mathlib
import HackVM.Proofs.Outline

/-!
# What lowering does

Lowering a command either refuses it or changes each part of the ledger in a way that can be read off
the command alone. `Site.lower_isOk_iff` says so for one command, and the lemmas behind it follow a
unit and a program through the loops over their commands.
-/

namespace HackVM

section Except

variable {ε ε' α β : Type}

lemma ok_bind (a : α) (f : α → Except ε β) : Except.ok a >>= f = f a := rfl

/-- A sequence of two computations succeeds when both do. -/
lemma bind_eq_ok_iff {x : Except ε α} {f : α → Except ε β} {b : β} :
    x >>= f = .ok b ↔ ∃ a, x = .ok a ∧ f a = .ok b := by
  cases x with
  | error e => exact ⟨nofun, fun ⟨_, h, _⟩ => nomatch h⟩
  | ok a => exact ⟨fun h => ⟨a, rfl, h⟩, fun ⟨_, e, h⟩ => by cases e; exact h⟩

/-- Changing the result of a computation keeps its success. -/
lemma map_eq_ok_iff {x : Except ε α} {f : α → β} {b : β} :
    f <$> x = .ok b ↔ ∃ a, x = .ok a ∧ f a = b := by
  cases x with
  | error e => exact ⟨nofun, fun ⟨_, h, _⟩ => nomatch h⟩
  | ok a =>
    refine ⟨fun h => ⟨a, rfl, Except.ok.inj h⟩, fun ⟨_, e, h⟩ => ?_⟩
    cases e
    exact congrArg Except.ok h

/-- Changing the fault of a computation keeps its success. -/
lemma mapError_eq_ok_iff {x : Except ε α} {f : ε → ε'} {a : α} :
    x.mapError f = .ok a ↔ x = .ok a := by
  cases x with
  | error e => exact ⟨nofun, nofun⟩
  | ok b => exact ⟨fun h => by cases h; rfl, fun h => by cases h; rfl⟩

/-- A computation that succeeds has a result. -/
lemma exists_of_isOk {x : Except ε α} (h : x.isOk = true) : ∃ a, x = .ok a := by
  cases x with
  | error e => exact nomatch h
  | ok a => exact ⟨a, rfl⟩

/-- The result of a computation, with faults forgotten. -/
lemma toOption_eq_some_iff {x : Except ε α} {a : α} : x.toOption = some a ↔ x = .ok a := by
  cases x with
  | error e => exact ⟨nofun, nofun⟩
  | ok b => simp [Except.toOption]

end Except

section Lookup

variable {α β : Type} [BEq α] [LawfulBEq α] {table : List (α × β)} {key : α} {value : β}

/-- A key is looked for in the first entry of a table and then in the rest. -/
lemma lookup_cons_ite [DecidableEq α] (key other : α) (value : β) (table : List (α × β)) :
    ((other, value) :: table).lookup key = if key = other then some value else table.lookup key := by
  rw [List.lookup_cons]
  by_cases h : key = other
  · simp [h]
  · simp [h, beq_eq_false_iff_ne.mpr h]

/-- A table has no entry for a key that is not among its keys. -/
lemma lookup_eq_none_iff_notMem : table.lookup key = none ↔ key ∉ table.map Prod.fst := by
  simp only [List.lookup_eq_none_iff, List.mem_map, not_exists, not_and, bne_iff_ne]
  exact ⟨fun h entry hm e => h entry hm e.symm, fun h entry hm e => h entry hm e.symm⟩

/-- What is found in a table stands in it. -/
lemma mem_of_lookup (h : table.lookup key = some value) : (key, value) ∈ table := by
  obtain ⟨before, after, rfl, _⟩ := List.lookup_eq_some_iff.mp h
  simp

/-- An entry of a table with different keys is found. -/
lemma lookup_of_mem (distinct : (table.map Prod.fst).Nodup) (h : (key, value) ∈ table) :
    table.lookup key = some value := by
  cases e : table.lookup key with
  | none => exact absurd (List.mem_map_of_mem h) (lookup_eq_none_iff_notMem.mp e)
  | some other =>
    have same := List.inj_on_of_nodup_map distinct (mem_of_lookup e) h rfl
    exact congrArg some (congrArg Prod.snd same)

/-- A ledger knows the entry labels of the functions in its table and no others. -/
lemma Ledger.entry?_eq_none_iff {ledger : Ledger} {name : String} :
    ledger.entry? name = none ↔ name ∉ ledger.functions.map Prod.fst := by
  rw [← lookup_eq_none_iff_notMem]
  exact Option.map_eq_none_iff

/-- The entry label of a function that is defined in a unit. -/
lemma Ledger.entry?_of_lookup {ledger : Ledger} {name unit : String}
    (h : ledger.functions.lookup name = some unit) :
    ledger.entry? name = some (Scope.entry ⟨unit, name⟩) :=
  congrArg (Option.map _) h

end Lookup

section Noted

variable {α : Type} [DecidableEq α]

/-- The items found before, followed by the new ones in the order of their first appearance. -/
def noted (found items : List α) : List α :=
  items.foldl (fun found item => if item ∈ found then found else found ++ [item]) found

@[simp]
lemma noted_nil (found : List α) : noted found [] = found := rfl

lemma noted_cons (found : List α) (item : α) (items : List α) :
    noted found (item :: items) = noted (noted found [item]) items := rfl

lemma noted_append (found first second : List α) :
    noted found (first ++ second) = noted (noted found first) second := by
  simp [noted]

/-- Noting one item. -/
lemma noted_singleton (found : List α) (item : α) :
    noted found [item] = if item ∈ found then found else found ++ [item] := rfl

/-- Nothing is forgotten by noting more. -/
lemma length_le_noted (found items : List α) : found.length ≤ (noted found items).length := by
  induction items generalizing found with
  | nil => exact le_rfl
  | cons item items ih =>
    rw [noted_cons]
    refine le_trans ?_ (ih _)
    rw [noted_singleton]
    split_ifs <;> simp

/-- What is noted is what was found before and what is new. -/
lemma mem_noted {found items : List α} {x : α} : x ∈ noted found items ↔ x ∈ found ∨ x ∈ items := by
  induction items generalizing found with
  | nil => simp
  | cons item items ih =>
    rw [noted_cons, ih, noted_singleton]
    split_ifs with h
    · constructor
      · rintro (hx | hx)
        · exact .inl hx
        · exact .inr (.tail _ hx)
      · rintro (hx | hx)
        · exact .inl hx
        · rcases List.mem_cons.mp hx with rfl | hx
          · exact .inl h
          · exact .inr hx
    · simp [or_assoc]

/-- Nothing is noted twice. -/
lemma nodup_noted {found items : List α} (h : found.Nodup) : (noted found items).Nodup := by
  induction items generalizing found with
  | nil => exact h
  | cons item items ih =>
    rw [noted_cons]
    apply ih
    rw [noted_singleton]
    split_ifs with hm
    · exact h
    · exact List.nodup_append.mpr ⟨h, List.nodup_singleton _, by
        rintro a ha b hb rfl
        exact hm (List.mem_singleton.mp hb ▸ ha)⟩

/-- As many items are noted as there are different ones. -/
lemma length_noted_nil (items : List α) : (noted [] items).length = items.toFinset.card := by
  rw [← List.toFinset_card_of_nodup (nodup_noted List.nodup_nil)]
  congr 1
  ext x
  simp [mem_noted]

end Noted

@[simp]
lemma Statistics.recordSites_zero (stats : Statistics) : stats.recordSites 0 0 = stats := rfl

/-- The ledger after a line that it admits. -/
def Ledger.after (ledger : Ledger) (line : Line) : Ledger where
  functions := ledger.functions
  returns := ledger.returns + line.command.returnLabels
  statics := noted ledger.statics line.static?.toList
  labels :=
    { declared := ledger.labels.declared ++ line.command.declares?.toList
      referenced := ledger.labels.referenced ++ line.command.refersTo?.toList }
  stats := ledger.stats.recordSites line.command.callSites line.command.comparisonSites

/-- A line that declares and refers to no label, uses no static variable and takes no return label
leaves the ledger alone. -/
lemma Ledger.after_eq_self (ledger : Ledger) (line : Line) (hd : line.command.declares? = none)
    (hr : line.command.refersTo? = none) (hs : line.command.static? = none)
    (hc : line.command.callSites = 0) (hk : line.command.comparisonSites = 0) :
    ledger.after line = ledger := by
  simp [after, Line.static?, Command.returnLabels, hd, hr, hs, hc, hk]

/-- A push or a pop changes only the static variables of a ledger. -/
lemma Ledger.after_transfer (ledger : Ledger) {scope : Scope} {command : Command}
    {segment : Segment} {index : UInt16}
    (hc : command = .push segment index ∨ command = .pop segment index) :
    ledger.after ⟨scope, command⟩ = { ledger with
      statics := noted ledger.statics (Line.static? ⟨scope, command⟩).toList } := by
  rcases hc with rfl | rfl <;>
    simp [after, Command.declares?, Command.refersTo?, Command.returnLabels, Command.callSites,
      Command.comparisonSites]

/-- What a line must satisfy because of the lines in front of it: its label is new in its function,
and its static variable has a cell or finds one. -/
structure Ledger.Admits (ledger : Ledger) (line : Line) : Prop where
  fresh : ∀ label ∈ line.command.declares?, label ∉ ledger.labels.declared
  room : ∀ cell ∈ line.static?, cell ∈ ledger.statics ∨ ledger.statics.length < staticLimit

/-- Nothing new stands in the way of a line that neither declares a label nor uses a static variable. -/
lemma Ledger.admits_of_none (ledger : Ledger) (line : Line) (hl : line.command.declares? = none)
    (hs : line.command.static? = none) : ledger.Admits line := by
  refine ⟨?_, ?_⟩
  · simp [hl]
  · simp [Line.static?, hs]

/-- A segment resolves exactly the indices up to its largest one. -/
lemma Segment.resolve_isOk_iff (segment : Segment) (unit : String) {index : UInt16} :
    (∃ location, segment.resolve unit index = .ok location) ↔ index ≤ segment.maxIndex := by
  unfold Segment.resolve
  by_cases h : segment.maxIndex < index
  · simp only [if_pos h, reduceCtorEq, exists_false, false_iff]
    exact UInt16.not_le.mpr h
  · simp only [if_neg h, Except.ok.injEq, exists_eq', true_iff]
    exact UInt16.not_lt.mp h

namespace Site

variable {site : Site} {ledger ledger' : Ledger} {code : Code} {location : Location}

/-- Resolving at a site succeeds as resolving in its unit does. -/
lemma resolve_eq_ok_iff {segment : Segment} {index : UInt16} :
    site.resolve segment index = .ok location ↔
      segment.resolve site.scope.unit index = .ok location :=
  mapError_eq_ok_iff

/-- The check of names at a site lets exactly the legal ones pass. -/
lemma checkName_eq_ok_iff {name : String} : site.checkName name = .ok () ↔ Name.Legal name := by
  rw [checkName, mapError_eq_ok_iff, Name.check_eq_ok_iff]

end Site

/-- A ledger has room for a static variable that has a cell or finds one, and then notes it. -/
lemma Ledger.reserve_eq (ledger : Ledger) (unit : String) (index : UInt16) :
    ledger.reserve unit index =
      if (unit, index) ∈ ledger.statics ∨ ledger.statics.length < staticLimit then
        .ok { ledger with statics := noted ledger.statics [(unit, index)] }
      else .error (.staticOverflow unit index) := by
  rw [reserve, noted_singleton]
  by_cases known : (unit, index) ∈ ledger.statics
  · simp [known]
  · by_cases full : staticLimit ≤ ledger.statics.length
    · simp [known, full]
    · simp [known, full, not_le.mp full]

lemma Ledger.reserve_eq_ok_iff {ledger ledger' : Ledger} {unit : String} {index : UInt16} :
    ledger.reserve unit index = .ok ledger' ↔
      ((unit, index) ∈ ledger.statics ∨ ledger.statics.length < staticLimit) ∧
        ledger' = { ledger with statics := noted ledger.statics [(unit, index)] } := by
  rw [reserve_eq]
  split_ifs with room
  · simp [room, eq_comm]
  · simp [room]

namespace Site

variable {site : Site} {ledger ledger' : Ledger} {code : Code} {inlineMax : UInt16}

/-- A place that is no mere value can be popped into. -/
lemma popCode?_eq_none_iff {segment : Segment} {unit : String} {index : UInt16}
    {location : Location} (h : segment.resolve unit index = .ok location) :
    location.popCode? = none ↔ segment = .constant := by
  have hi := (Segment.resolve_isOk_iff segment unit).mp ⟨location, h⟩
  unfold Segment.resolve at h
  rw [if_neg (UInt16.not_lt.mpr hi)] at h
  cases segment <;> cases h <;> simp [Location.popCode?]

/-- Reserving at a site changes only the static variables of the ledger. -/
lemma reserve_eq_ok_iff {segment : Segment} {index : UInt16} {command : Command}
    (hc : command.static? = if segment = .statics then some index else none) :
    site.reserve segment index ledger = .ok ledger' ↔
      (∀ cell ∈ Line.static? ⟨site.scope, command⟩,
        cell ∈ ledger.statics ∨ ledger.statics.length < staticLimit) ∧
      ledger' = { ledger with
        statics := noted ledger.statics (Line.static? ⟨site.scope, command⟩).toList } := by
  unfold reserve Line.static?
  cases segment with
  | statics =>
    rw [Ledger.reserve_eq_ok_iff, hc]
    simp
  | _ =>
    rw [hc]
    simp only [reduceCtorEq, if_false, Option.map_none, Option.not_mem_none, false_implies,
      implies_true, true_and, Except.ok.injEq]
    exact eq_comm

/-- Lowering a push succeeds for the indices of its segment. -/
lemma lowerPush_isOk_iff {segment : Segment} {index : UInt16} :
    (∃ code, site.lowerPush segment index ledger = .ok (code, ledger')) ↔
      index ≤ segment.maxIndex ∧ ledger.Admits ⟨site.scope, .push segment index⟩ ∧
        ledger' = ledger.after ⟨site.scope, .push segment index⟩ := by
  have hc : (Command.push segment index).static? =
      if segment = .statics then some index else none := by
    cases segment <;> rfl
  rw [← Segment.resolve_isOk_iff segment site.scope.unit]
  constructor
  · rintro ⟨code, h⟩
    obtain ⟨location, hl, h⟩ := bind_eq_ok_iff.mp h
    obtain ⟨ledger₁, hr, h⟩ := bind_eq_ok_iff.mp h
    cases h
    obtain ⟨room, rfl⟩ := (reserve_eq_ok_iff hc).mp hr
    refine ⟨⟨location, resolve_eq_ok_iff.mp hl⟩, ⟨nofun, room⟩, ?_⟩
    exact (ledger.after_transfer (.inl rfl)).symm
  · rintro ⟨⟨location, hl⟩, admits, rfl⟩
    refine ⟨location.pushCode, bind_eq_ok_iff.mpr ⟨location, resolve_eq_ok_iff.mpr hl, ?_⟩⟩
    refine bind_eq_ok_iff.mpr ⟨_, (reserve_eq_ok_iff hc).mpr ⟨admits.room, rfl⟩, ?_⟩
    rw [ledger.after_transfer (.inl rfl)]
    rfl

/-- Lowering a pop succeeds for the indices of its segment, which must not be the constants. -/
lemma lowerPop_isOk_iff {segment : Segment} {index : UInt16} :
    (∃ code, site.lowerPop segment index ledger = .ok (code, ledger')) ↔
      (index ≤ segment.maxIndex ∧ segment ≠ .constant) ∧
        ledger.Admits ⟨site.scope, .pop segment index⟩ ∧
        ledger' = ledger.after ⟨site.scope, .pop segment index⟩ := by
  have hc : (Command.pop segment index).static? =
      if segment = .statics then some index else none := by
    cases segment <;> rfl
  rw [← Segment.resolve_isOk_iff segment site.scope.unit]
  constructor
  · rintro ⟨code, h⟩
    obtain ⟨location, hl, h⟩ := bind_eq_ok_iff.mp h
    have hl := resolve_eq_ok_iff.mp hl
    cases hp : location.popCode? with
    | none =>
      rw [hp] at h
      exact nomatch h
    | some popCode =>
      rw [hp] at h
      obtain ⟨ledger₁, hr, h⟩ := bind_eq_ok_iff.mp h
      cases h
      obtain ⟨room, rfl⟩ := (reserve_eq_ok_iff hc).mp hr
      refine ⟨⟨⟨location, hl⟩, fun e => ?_⟩, ⟨nofun, room⟩, ?_⟩
      · rw [(popCode?_eq_none_iff hl).mpr e] at hp
        exact nomatch hp
      · exact (ledger.after_transfer (.inr rfl)).symm
  · rintro ⟨⟨⟨location, hl⟩, hs⟩, admits, rfl⟩
    cases hp : location.popCode? with
    | none => exact absurd ((popCode?_eq_none_iff hl).mp hp) hs
    | some popCode =>
      refine ⟨popCode, bind_eq_ok_iff.mpr ⟨location, resolve_eq_ok_iff.mpr hl, ?_⟩⟩
      rw [hp]
      refine bind_eq_ok_iff.mpr ⟨_, (reserve_eq_ok_iff hc).mpr ⟨admits.room, rfl⟩, ?_⟩
      rw [ledger.after_transfer (.inr rfl)]
      rfl

/-- Lowering a label succeeds for a legal name that is new in its function. -/
lemma lowerLabel_isOk_iff {name : String} :
    (∃ code, site.lowerLabel name ledger = .ok (code, ledger')) ↔
      Name.Legal name ∧ ledger.Admits ⟨site.scope, .label name⟩ ∧
        ledger' = ledger.after ⟨site.scope, .label name⟩ := by
  have after : { ledger with labels :=
      { ledger.labels with declared := ledger.labels.declared ++ [name] } } =
      ledger.after ⟨site.scope, .label name⟩ := by
    simp [Ledger.after, Line.static?, Command.declares?, Command.refersTo?, Command.static?,
      Command.returnLabels, Command.callSites, Command.comparisonSites]
  constructor
  · rintro ⟨code, h⟩
    obtain ⟨_, hn, h⟩ := bind_eq_ok_iff.mp h
    obtain ⟨ledger₁, hd, h⟩ := bind_eq_ok_iff.mp h
    cases h
    rw [Ledger.declareLabel] at hd
    split_ifs at hd with hm
    cases hd
    have fresh : name ∉ ledger.labels.declared := by simpa using hm
    refine ⟨checkName_eq_ok_iff.mp hn, ⟨?_, by simp [Line.static?, Command.static?]⟩, after⟩
    rintro label ⟨⟩
    exact fresh
  · rintro ⟨legal, admits, rfl⟩
    have fresh : name ∉ ledger.labels.declared := admits.fresh name rfl
    refine ⟨[.label (site.scope.userLabel name)],
      bind_eq_ok_iff.mpr ⟨(), checkName_eq_ok_iff.mpr legal, ?_⟩⟩
    refine bind_eq_ok_iff.mpr ⟨ledger.after ⟨site.scope, .label name⟩, ?_, rfl⟩
    rw [← after, Ledger.declareLabel, if_neg (by simpa using fresh)]

/-- A command that only refers to a label is lowered if the name is legal, whatever its code is. -/
lemma refer_isOk_iff {name : String} {command : Command} {code : Code}
    (hc : command = .goto name ∨ command = .ifGoto name) :
    (∃ code', (do site.checkName name; return (code, ledger.referToLabel name)) =
      Except.ok (ε := Fault) (code', ledger')) ↔
      Name.Legal name ∧ ledger' = ledger.after ⟨site.scope, command⟩ := by
  have after : ledger.referToLabel name = ledger.after ⟨site.scope, command⟩ := by
    rcases hc with rfl | rfl <;>
      simp [Ledger.referToLabel, Ledger.after, Line.static?, Command.declares?, Command.refersTo?,
        Command.static?, Command.returnLabels, Command.callSites, Command.comparisonSites]
  constructor
  · rintro ⟨code', h⟩
    obtain ⟨_, hn, h⟩ := bind_eq_ok_iff.mp h
    cases h
    exact ⟨checkName_eq_ok_iff.mp hn, after⟩
  · rintro ⟨legal, rfl⟩
    exact ⟨code, bind_eq_ok_iff.mpr ⟨(), checkName_eq_ok_iff.mpr legal, by rw [← after]; rfl⟩⟩

/-- Lowering the start of a function succeeds for a count of locals that fits an instruction. -/
lemma lowerFunction_isOk_iff {name : String} {locals : UInt16} :
    (∃ code, site.lowerFunction locals inlineMax ledger = .ok (code, ledger')) ↔
      locals ≤ maxImmediate ∧ ledger' = ledger.after ⟨site.scope, .function name locals⟩ := by
  have after := ledger.after_eq_self ⟨site.scope, .function name locals⟩ rfl rfl rfl rfl rfl
  unfold lowerFunction
  by_cases h : maxImmediate < locals
  · simp only [if_pos h, reduceCtorEq, exists_false, false_iff, not_and]
    exact fun hle => absurd hle (UInt16.not_le.mpr h)
  · simp only [if_neg h, Except.ok.injEq, Prod.mk.injEq, exists_and_right, exists_eq', true_and,
      UInt16.not_lt.mp h]
    rw [after]
    exact eq_comm

/-- Lowering a call succeeds for a function of the program and a count that fits an instruction. -/
lemma lowerCall_isOk_iff {name : String} {arguments : UInt16} :
    (∃ code, site.lowerCall name arguments ledger = .ok (code, ledger')) ↔
      (arguments ≤ maxImmediate ∧ name ∈ ledger.functions.map Prod.fst) ∧
        ledger' = ledger.after ⟨site.scope, .call name arguments⟩ := by
  unfold lowerCall
  by_cases h : maxImmediate < arguments
  · simp only [if_pos h, reduceCtorEq, exists_false, false_iff, not_and]
    exact fun hle => absurd hle.1 (UInt16.not_le.mpr h)
  · rw [if_neg h]
    cases he : ledger.entry? name with
    | none =>
      have undefined := Ledger.entry?_eq_none_iff.mp he
      simp [undefined]
    | some target =>
      have defined : name ∈ ledger.functions.map Prod.fst := by
        by_contra undefined
        rw [Ledger.entry?_eq_none_iff.mpr undefined] at he
        exact nomatch he
      simp only [Except.ok.injEq, Prod.mk.injEq, exists_and_right, exists_eq', true_and,
        UInt16.not_lt.mp h, defined]
      have after : (ledger.nextReturn site.scope "ret").2.recordSites 1 0 =
          ledger.after ⟨site.scope, .call name arguments⟩ := by
        simp [Ledger.nextReturn, Ledger.recordSites, Ledger.after, Line.static?,
          Command.declares?, Command.refersTo?, Command.static?, Command.returnLabels,
          Command.callSites, Command.comparisonSites]
      rw [← after]
      exact eq_comm

/-- Lowering an operation always succeeds. -/
lemma lowerOperation_snd (operation : Operation) :
    (site.lowerOperation operation ledger).2 = ledger.after ⟨site.scope, .operate operation⟩ := by
  cases operation with
  | compare comparison =>
    simp [lowerOperation, Ledger.nextReturn, Ledger.recordSites, Ledger.after, Line.static?,
      Command.declares?, Command.refersTo?, Command.static?, Command.returnLabels,
      Command.callSites, Command.comparisonSites]
  | _ => exact (ledger.after_eq_self _ rfl rfl rfl rfl rfl).symm

/-- A command is lowered exactly if it is well formed and the ledger admits it, and then each part of
the ledger changes by what the command says. -/
lemma lower_isOk_iff (site : Site) {command : Command} :
    (∃ code, site.lower inlineMax command ledger = .ok (code, ledger')) ↔
      command.WellFormed (ledger.functions.map Prod.fst) ∧
        ledger.Admits ⟨site.scope, command⟩ ∧ ledger' = ledger.after ⟨site.scope, command⟩ := by
  cases command with
  | push segment index => exact lowerPush_isOk_iff
  | pop segment index => exact lowerPop_isOk_iff
  | label name => exact lowerLabel_isOk_iff
  | operate operation =>
    have admits := ledger.admits_of_none ⟨site.scope, .operate operation⟩ rfl rfl
    rw [← lowerOperation_snd]
    constructor
    · rintro ⟨code, h⟩
      exact ⟨trivial, admits, congrArg Prod.snd (Except.ok.inj h).symm⟩
    · rintro ⟨_, _, rfl⟩
      exact ⟨_, rfl⟩
  | goto name =>
    have admits := ledger.admits_of_none ⟨site.scope, .goto name⟩ rfl rfl
    exact (refer_isOk_iff (.inl rfl)).trans (and_congr_right' (and_iff_right admits).symm)
  | ifGoto name =>
    have admits := ledger.admits_of_none ⟨site.scope, .ifGoto name⟩ rfl rfl
    exact (refer_isOk_iff (.inr rfl)).trans (and_congr_right' (and_iff_right admits).symm)
  | function name locals =>
    have admits := ledger.admits_of_none ⟨site.scope, .function name locals⟩ rfl rfl
    exact lowerFunction_isOk_iff.trans (and_congr_right' (and_iff_right admits).symm)
  | call name arguments =>
    have admits := ledger.admits_of_none ⟨site.scope, .call name arguments⟩ rfl rfl
    exact lowerCall_isOk_iff.trans (and_congr_right' (and_iff_right admits).symm)
  | ret =>
    have admits := ledger.admits_of_none ⟨site.scope, .ret⟩ rfl rfl
    have after := ledger.after_eq_self ⟨site.scope, .ret⟩ rfl rfl rfl rfl rfl
    constructor
    · rintro ⟨code, h⟩
      exact ⟨trivial, admits, (congrArg Prod.snd (Except.ok.inj h)).symm.trans after.symm⟩
    · rintro ⟨_, _, rfl⟩
      exact ⟨_, congrArg (fun l => Except.ok (_, l)) after.symm⟩

end Site

namespace Line

variable {functions : List (String × String)} {inlineMax : UInt16} {returns : Nat} {scope : Scope}

/-- The code of a push. -/
lemma code_push {segment : Segment} {index : UInt16} {location : Location}
    (h : segment.resolve scope.unit index = .ok location) :
    Line.code functions inlineMax returns ⟨scope, .push segment index⟩ = location.pushCode := by
  cases segment <;>
    simp [Line.code, Site.lower, Site.lowerPush, Site.resolve, h, Except.mapError, Site.reserve,
      Ledger.reserve, Ledger.opening, staticLimit, bind, Except.bind, pure, Except.pure]

/-- The code of a pop. -/
lemma code_pop {segment : Segment} {index : UInt16} {location : Location} {code : Code}
    (h : segment.resolve scope.unit index = .ok location) (hp : location.popCode? = some code) :
    Line.code functions inlineMax returns ⟨scope, .pop segment index⟩ = code := by
  cases segment <;>
    simp [Line.code, Site.lower, Site.lowerPop, Site.resolve, h, hp, Except.mapError, Site.reserve,
      Ledger.reserve, Ledger.opening, staticLimit, bind, Except.bind, pure, Except.pure]

/-- The code of an operation. -/
lemma code_operate (operation : Operation) :
    Line.code functions inlineMax returns ⟨scope, .operate operation⟩ =
      (Site.lowerOperation ⟨scope, 0⟩ operation (.opening functions returns)).1 := rfl

/-- The code of a label. -/
lemma code_label {name : String} (h : Name.Legal name) :
    Line.code functions inlineMax returns ⟨scope, .label name⟩ =
      [.label (scope.userLabel name)] := by
  simp [Line.code, Site.lower, Site.lowerLabel, Site.checkName, Name.check_eq_ok_iff.mpr h,
    Except.mapError, Ledger.declareLabel, Ledger.opening, LabelUse.empty, bind, Except.bind, pure,
    Except.pure]

/-- The code of a jump. -/
lemma code_goto {name : String} (h : Name.Legal name) :
    Line.code functions inlineMax returns ⟨scope, .goto name⟩ =
      Code.goto (scope.userLabel name) := by
  simp [Line.code, Site.lower, Site.lowerGoto, Site.checkName, Name.check_eq_ok_iff.mpr h,
    Except.mapError, bind, Except.bind, pure, Except.pure]

/-- The code of a conditional jump. -/
lemma code_ifGoto {name : String} (h : Name.Legal name) :
    Line.code functions inlineMax returns ⟨scope, .ifGoto name⟩ =
      Code.popD ++ Code.branch (scope.userLabel name) .ifNonzero := by
  simp [Line.code, Site.lower, Site.lowerIfGoto, Site.checkName, Name.check_eq_ok_iff.mpr h,
    Except.mapError, bind, Except.bind, pure, Except.pure]

/-- The code of the start of a function. -/
lemma code_function {name : String} {locals : UInt16} (h : locals ≤ maxImmediate) :
    Line.code functions inlineMax returns ⟨scope, .function name locals⟩ =
      .label scope.entry :: scope.prologue locals inlineMax := by
  simp [Line.code, Site.lower, Site.lowerFunction, UInt16.not_lt.mpr h]

/-- The code of a call. -/
lemma code_call {name unit : String} {arguments : UInt16} (h : arguments ≤ maxImmediate)
    (hf : functions.lookup name = some unit) :
    Line.code functions inlineMax returns ⟨scope, .call name arguments⟩ =
      Code.callSequence (Scope.entry ⟨unit, name⟩) arguments
        (scope.returnLabel "ret" (returns + 1)) := by
  simp [Line.code, Site.lower, Site.lowerCall, UInt16.not_lt.mpr h, Ledger.entry?, Ledger.opening,
    hf, Ledger.nextReturn]

/-- The code that each kind of line is lowered to, with what the command had to satisfy for it. -/
inductive Lowers (functions : List (String × String)) (inlineMax : UInt16) (returns : Nat)
    (scope : Scope) : Command → Code → Prop where
  | push {segment : Segment} {index : UInt16} {location : Location}
      (resolved : segment.resolve scope.unit index = .ok location) :
      Lowers functions inlineMax returns scope (.push segment index) location.pushCode
  | pop {segment : Segment} {index : UInt16} {location : Location} {code : Code}
      (resolved : segment.resolve scope.unit index = .ok location)
      (place : location.popCode? = some code) :
      Lowers functions inlineMax returns scope (.pop segment index) code
  | operate (operation : Operation) :
      Lowers functions inlineMax returns scope (.operate operation)
        (Site.lowerOperation ⟨scope, 0⟩ operation (.opening functions returns)).1
  | label {name : String} (legal : Name.Legal name) :
      Lowers functions inlineMax returns scope (.label name) [.label (scope.userLabel name)]
  | goto {name : String} (legal : Name.Legal name) :
      Lowers functions inlineMax returns scope (.goto name) (Code.goto (scope.userLabel name))
  | ifGoto {name : String} (legal : Name.Legal name) :
      Lowers functions inlineMax returns scope (.ifGoto name)
        (Code.popD ++ Code.branch (scope.userLabel name) .ifNonzero)
  | function {name : String} {locals : UInt16} (fits : locals ≤ maxImmediate) :
      Lowers functions inlineMax returns scope (.function name locals)
        (.label scope.entry :: scope.prologue locals inlineMax)
  | call {name unit : String} {arguments : UInt16} (fits : arguments ≤ maxImmediate)
      (defined : functions.lookup name = some unit) :
      Lowers functions inlineMax returns scope (.call name arguments)
        (Code.callSequence (Scope.entry ⟨unit, name⟩) arguments
          (scope.returnLabel "ret" (returns + 1)))
  | ret : Lowers functions inlineMax returns scope .ret (Code.goto (Routine.entry .return))

/-- A well-formed line is lowered to its code. -/
lemma lowers_code {command : Command} (wf : command.WellFormed (functions.map Prod.fst)) :
    Lowers functions inlineMax returns scope command
      (Line.code functions inlineMax returns ⟨scope, command⟩) := by
  cases command with
  | push segment index =>
    obtain ⟨location, hl⟩ := (Segment.resolve_isOk_iff segment scope.unit).mpr wf
    exact code_push hl ▸ .push hl
  | pop segment index =>
    obtain ⟨location, hl⟩ := (Segment.resolve_isOk_iff segment scope.unit).mpr wf.1
    cases hp : location.popCode? with
    | none => exact absurd ((Site.popCode?_eq_none_iff hl).mp hp) wf.2
    | some code => exact code_pop hl hp ▸ .pop hl hp
  | operate operation => exact .operate operation
  | label name => exact code_label wf ▸ .label wf
  | goto name => exact code_goto wf ▸ .goto wf
  | ifGoto name => exact code_ifGoto wf ▸ .ifGoto wf
  | function name locals => exact code_function wf ▸ .function wf
  | call name arguments =>
    cases hf : functions.lookup name with
    | none => exact absurd wf.2 (lookup_eq_none_iff_notMem.mp hf)
    | some unit => exact code_call wf.1 hf ▸ .call wf.1 hf
  | ret => exact .ret

end Line

/-- The code that lowering gives is the code of the line: it depends on no more of the ledger than
the functions of the program and the number of return labels handed out. -/
lemma Site.lower_code {site : Site} {ledger ledger' : Ledger} {code : Code} {inlineMax : UInt16}
    {command : Command} (h : site.lower inlineMax command ledger = .ok (code, ledger')) :
    code = Line.code ledger.functions inlineMax ledger.returns ⟨site.scope, command⟩ := by
  have wf := ((lower_isOk_iff site).mp ⟨code, h⟩).1
  cases command with
  | push segment index =>
    obtain ⟨location, hl, h⟩ := bind_eq_ok_iff.mp h
    obtain ⟨_, _, h⟩ := bind_eq_ok_iff.mp h
    cases h
    exact (Line.code_push (resolve_eq_ok_iff.mp hl)).symm
  | pop segment index =>
    obtain ⟨location, hl, h⟩ := bind_eq_ok_iff.mp h
    cases hp : location.popCode? with
    | none =>
      rw [hp] at h
      exact nomatch h
    | some popCode =>
      rw [hp] at h
      obtain ⟨_, _, h⟩ := bind_eq_ok_iff.mp h
      cases h
      exact (Line.code_pop (resolve_eq_ok_iff.mp hl) hp).symm
  | operate operation =>
    rw [Line.code_operate]
    cases operation <;> cases h <;> rfl
  | label name =>
    obtain ⟨_, _, h⟩ := bind_eq_ok_iff.mp h
    obtain ⟨_, _, h⟩ := bind_eq_ok_iff.mp h
    cases h
    exact (Line.code_label wf).symm
  | goto name =>
    obtain ⟨_, _, h⟩ := bind_eq_ok_iff.mp h
    cases h
    exact (Line.code_goto wf).symm
  | ifGoto name =>
    obtain ⟨_, _, h⟩ := bind_eq_ok_iff.mp h
    cases h
    exact (Line.code_ifGoto wf).symm
  | function name locals =>
    rw [Site.lower, lowerFunction, if_neg (UInt16.not_lt.mpr wf)] at h
    cases h
    exact (Line.code_function wf).symm
  | call name arguments =>
    rw [Site.lower, lowerCall, if_neg (UInt16.not_lt.mpr wf.1)] at h
    cases hf : ledger.functions.lookup name with
    | none => exact absurd wf.2 (lookup_eq_none_iff_notMem.mp hf)
    | some unit =>
      rw [Ledger.entry?_of_lookup hf] at h
      cases h
      exact (Line.code_call wf.1 hf).symm
  | ret =>
    cases h
    rfl

end HackVM
