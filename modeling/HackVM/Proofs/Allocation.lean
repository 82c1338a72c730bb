import Mathlib
import HackVM.Proofs.Referents

/-!
# Names handed out

A ledger hands out return labels and the symbols of static variables. They are made from names that may be
any words here, so only the number behind the last joint is sure to tell two of them apart. It does: the
serial number of a return label does not come back, and the symbol of a static variable gives away its index
and with it its unit. `Ledger.Gives` says what becomes of a ledger by the names it gives.
-/

namespace HackVM

/-- A request for a name. -/
inductive NameRequest where
  /-- A return label that was not given before. -/
  | returnLabel (scope : Scope) (tag : String)
  /-- The symbol of a static variable, which has a cell from then on. -/
  | staticCell (unit : String) (index : UInt16)
deriving DecidableEq, Repr

/-- A request for a name and what was given. Only a static variable can be refused. -/
inductive NameReply where
  | label (scope : Scope) (tag : String) (given : String)
  | cell (unit : String) (index : UInt16) (given : Except Fault String)
deriving DecidableEq

namespace NameReply

/-- What was asked for. -/
def request : NameReply → NameRequest
  | .label scope tag _ => .returnLabel scope tag
  | .cell unit index _ => .staticCell unit index

/-- The label in a reply. -/
def label? : NameReply → Option String
  | .label _ _ given => some given
  | .cell .. => none

/-- The static cell that a reply accepts. -/
def accepted? : NameReply → Option (String × UInt16)
  | .cell unit index (.ok _) => some (unit, index)
  | _ => none

/-- The return labels that were given. -/
def labels (replies : List NameReply) : List String :=
  replies.filterMap label?

/-- The different static variables that were accepted. -/
def accepted (replies : List NameReply) : Finset (String × UInt16) :=
  (replies.filterMap accepted?).toFinset

/-- The labels in two runs of replies are those of the one and then those of the other. -/
lemma labels_append (first second : List NameReply) :
    labels (first ++ second) = labels first ++ labels second :=
  List.filterMap_append

end NameReply

namespace Ledger

/-- Answers a request for a name. -/
def reply (ledger : Ledger) : NameRequest → NameReply × Ledger
  | .returnLabel scope tag =>
    let (label, ledger) := ledger.nextReturn scope tag
    (.label scope tag label, ledger)
  | .staticCell unit index =>
    match ledger.staticCell unit index with
    | .ok (symbol, ledger) => (.cell unit index (.ok symbol), ledger)
    | .error fault => (.cell unit index (.error fault), ledger)

/-- Answers requests one after the other. -/
def replies (ledger : Ledger) : List NameRequest → List NameReply × Ledger
  | [] => ([], ledger)
  | request :: rest =>
    let (first, ledger) := ledger.reply request
    let (others, ledger) := ledger.replies rest
    (first :: others, ledger)

/-- What becomes of a ledger by the replies it gives: the labels among them have the serial numbers that
follow, and the static variables that it accepts are noted within the budget. -/
structure Gives (ledger : Ledger) (replies : List NameReply) (ledger' : Ledger) : Prop where
  returns : ledger'.returns = ledger.returns + (NameReply.labels replies).length
  serials : ∀ label ∈ NameReply.labels replies, ∃ scope tag serial,
    ledger.returns < serial ∧ serial ≤ ledger'.returns ∧ label = Scope.returnLabel scope tag serial
  distinct : (NameReply.labels replies).Nodup
  statics : ledger'.statics = noted ledger.statics (replies.filterMap NameReply.accepted?)
  budget : ledger.statics.length ≤ staticLimit → ledger'.statics.length ≤ staticLimit

end Ledger

/-- A return label gives away its serial number, whatever its scope and its tag are. -/
lemma Scope.serial_inj {scope scope' : Scope} {tag tag' : String} {serial serial' : Nat}
    (e : scope.returnLabel tag serial = scope'.returnLabel tag' serial') : serial = serial' := by
  have split : ∀ (scope : Scope) (tag : String) (serial : Nat),
      (scope.returnLabel tag serial).toList =
        (scope.entry ++ "$" ++ tag).toList ++ '$' :: (Nat.repr serial).toList := by
    intro scope tag serial
    simp [returnLabel, String.toList_append]
  have e := congrArg String.toList e
  rw [split, split] at e
  exact (append_repr_inj (by decide) e).2

namespace Ledger

variable {ledger ledger' : Ledger} {replies : List NameReply}

/-- A static cell is given a symbol if it is known already or if there is room. -/
lemma staticCell_eq (ledger : Ledger) (unit : String) (index : UInt16) :
    ledger.staticCell unit index =
      if (unit, index) ∈ ledger.statics ∨ ledger.statics.length < staticLimit then
        .ok (staticSymbol unit index, { ledger with statics := noted ledger.statics [(unit, index)] })
      else .error (.staticOverflow unit index) := by
  rw [staticCell, reserve_eq]
  split_ifs with room
  · rfl
  · rfl

/-- A ledger gives nothing when nothing is asked. -/
lemma Gives.nil (ledger : Ledger) : ledger.Gives [] ledger where
  returns := rfl
  serials := by simp [NameReply.labels]
  distinct := List.nodup_nil
  statics := rfl
  budget := id

/-- What a ledger gives in two runs of requests it gives in both together. -/
lemma Gives.append {first second : List NameReply} {between : Ledger} (h : ledger.Gives first between)
    (h' : between.Gives second ledger') : ledger.Gives (first ++ second) ledger' where
  returns := by
    rw [h'.returns, h.returns, NameReply.labels_append, List.length_append, Nat.add_assoc]
  serials := by
    have earlier : ledger.returns ≤ between.returns := by
      rw [h.returns]
      apply Nat.le_add_right
    have later : between.returns ≤ ledger'.returns := by
      rw [h'.returns]
      apply Nat.le_add_right
    intro label mem
    rw [NameReply.labels_append] at mem
    rcases List.mem_append.mp mem with mem | mem
    · obtain ⟨scope, tag, serial, above, below, e⟩ := h.serials label mem
      exact ⟨scope, tag, serial, above, below.trans later, e⟩
    · obtain ⟨scope, tag, serial, above, below, e⟩ := h'.serials label mem
      exact ⟨scope, tag, serial, earlier.trans_lt above, below, e⟩
  distinct := by
    rw [NameReply.labels_append]
    apply List.Nodup.append h.distinct h'.distinct
    intro label mem mem'
    -- The serial numbers of the first labels end where those of the second begin.
    obtain ⟨_, _, _, _, below, e⟩ := h.serials label mem
    obtain ⟨_, _, _, above, _, e'⟩ := h'.serials label mem'
    have same := Scope.serial_inj (e.symm.trans e')
    omega
  statics := by rw [h'.statics, h.statics, List.filterMap_append, noted_append]
  budget := fun budget => h'.budget (h.budget budget)

/-- What a ledger gives to one request. -/
lemma gives_reply (ledger : Ledger) (request : NameRequest) :
    ledger.Gives [(ledger.reply request).1] (ledger.reply request).2 := by
  cases request with
  | returnLabel scope tag =>
    refine ⟨rfl, ?_, List.nodup_singleton _, rfl, id⟩
    intro label mem
    obtain rfl := List.mem_singleton.mp mem
    exact ⟨scope, tag, ledger.returns + 1, Nat.lt_succ_self _, le_rfl, rfl⟩
  | staticCell unit index =>
    rw [reply, staticCell_eq]
    by_cases room : (unit, index) ∈ ledger.statics ∨ ledger.statics.length < staticLimit
    · rw [if_pos room]
      refine ⟨rfl, fun _ mem => absurd mem List.not_mem_nil, List.nodup_nil, rfl, ?_⟩
      intro budget
      show (noted ledger.statics [(unit, index)]).length ≤ staticLimit
      rw [noted_singleton]
      split_ifs with known
      · exact budget
      · rw [List.length_append]
        exact room.resolve_left known
    · rw [if_neg room]
      exact ⟨rfl, fun _ mem => absurd mem List.not_mem_nil, List.nodup_nil, rfl, id⟩

/-- What a ledger gives to requests one after the other. -/
lemma gives_replies (ledger : Ledger) (requests : List NameRequest) :
    ledger.Gives (ledger.replies requests).1 (ledger.replies requests).2 := by
  induction requests generalizing ledger with
  | nil => exact Gives.nil ledger
  | cons request rest ih => exact (gives_reply ledger request).append (ih _)

/-- A reply tells which request it answers. -/
lemma request_reply (ledger : Ledger) (request : NameRequest) :
    (ledger.reply request).1.request = request := by
  cases request with
  | returnLabel scope tag => rfl
  | staticCell unit index =>
    rw [reply]
    cases ledger.staticCell unit index with
    | ok _ => rfl
    | error _ => rfl

/-- Requests are answered one after the other. -/
lemma replies_cons (ledger : Ledger) (request : NameRequest) (rest : List NameRequest) :
    (ledger.replies (request :: rest)).1 =
      (ledger.reply request).1 :: ((ledger.reply request).2.replies rest).1 := rfl

/-- There is one reply for each request, in order. -/
lemma map_request_replies (ledger : Ledger) (requests : List NameRequest) :
    (ledger.replies requests).1.map NameReply.request = requests := by
  induction requests generalizing ledger with
  | nil => rfl
  | cons request rest ih => rw [replies_cons, List.map_cons, request_reply, ih]

/-- Each reply is given by the ledger that the replies before it lead to. -/
lemma exists_gives_before {requests : List NameRequest} {before after : List NameReply}
    {given : NameReply} (h : (ledger.replies requests).1 = before ++ given :: after) :
    ∃ between : Ledger, ledger.Gives before between ∧ (between.reply given.request).1 = given := by
  induction requests generalizing ledger before with
  | nil => exact absurd h.symm (by simp [Ledger.replies])
  | cons request rest ih =>
    rw [replies_cons] at h
    cases before with
    | nil =>
      obtain ⟨rfl, -⟩ := List.cons.inj h
      exact ⟨ledger, Gives.nil ledger, by rw [request_reply]⟩
    | cons first before =>
      obtain ⟨rfl, others⟩ := List.cons.inj h
      obtain ⟨between, gives, same⟩ := ih others
      exact ⟨between, (gives_reply ledger request).append gives, same⟩

namespace Gives

variable (gives : empty.Gives replies ledger)
include gives

/-- The cells of the ledger are those that were accepted. -/
lemma mem_statics_iff {cell : String × UInt16} :
    cell ∈ ledger.statics ↔ cell ∈ NameReply.accepted replies := by
  rw [gives.statics, mem_noted]
  simp [empty, NameReply.accepted]

/-- The ledger has one cell for each pair that was accepted. -/
lemma length_statics : ledger.statics.length = (NameReply.accepted replies).card := by
  rw [gives.statics]
  exact length_noted_nil _

/-- What is given for a static variable depends on the static variables accepted before. -/
lemma reply_staticCell (unit : String) (index : UInt16) :
    (ledger.reply (.staticCell unit index)).1 = .cell unit index
      (if (unit, index) ∈ NameReply.accepted replies ∨
          (NameReply.accepted replies).card < staticLimit
        then .ok (staticSymbol unit index) else .error (.staticOverflow unit index)) := by
  rw [reply, staticCell_eq]
  simp only [gives.mem_statics_iff, gives.length_statics]
  split_ifs with room
  · rfl
  · rfl

end Gives

/-- Whether a cell is accepted depends only on what was accepted before it. -/
lemma given_eq {requests : List NameRequest} {before after : List NameReply} {unit : String}
    {index : UInt16} {given : Except Fault String}
    (h : (empty.replies requests).1 = before ++ .cell unit index given :: after) :
    given = if (unit, index) ∈ NameReply.accepted before ∨
        (NameReply.accepted before).card < staticLimit
      then .ok (staticSymbol unit index) else .error (.staticOverflow unit index) := by
  obtain ⟨between, gives, same⟩ := exists_gives_before h
  rw [NameReply.request, gives.reply_staticCell] at same
  exact (NameReply.cell.inj same).2.2.symm

/-- The symbol of an accepted cell is that of its unit and its index. -/
lemma symbol_eq {requests : List NameRequest} {unit symbol : String} {index : UInt16}
    (mem : .cell unit index (.ok symbol) ∈ (empty.replies requests).1) :
    symbol = staticSymbol unit index := by
  obtain ⟨before, after, e⟩ := List.append_of_mem mem
  have given := given_eq e
  split_ifs at given
  exact Except.ok.inj given

/-- A ledger answers every request in a row, with any words for names. The return labels that it gives are
all different, and it counts them. It gives a static variable its symbol if it accepted this one before or
has accepted fewer than 240 different ones, and else refuses it. It keeps the different ones that it
accepted, never more than 240, and no two of them get the same symbol. -/
theorem names_given_apart {requests : List NameRequest} {replies : List NameReply} {ledger : Ledger}
    (h : empty.replies requests = (replies, ledger)) :
    replies.map NameReply.request = requests ∧
      (NameReply.labels replies).Nodup ∧ ledger.returns = (NameReply.labels replies).length ∧
      (∀ before unit index given after, replies = before ++ .cell unit index given :: after →
        given = if (unit, index) ∈ NameReply.accepted before ∨ (NameReply.accepted before).card < 240
          then .ok (staticSymbol unit index) else .error (.staticOverflow unit index)) ∧
      ledger.statics.length = (NameReply.accepted replies).card ∧ ledger.statics.length ≤ 240 ∧
      ∀ unit unit' index index' symbol, .cell unit index (.ok symbol) ∈ replies →
        .cell unit' index' (.ok symbol) ∈ replies → unit = unit' ∧ index = index' := by
  obtain ⟨rfl, rfl⟩ := Prod.mk.inj h
  have gives := gives_replies empty requests
  refine ⟨map_request_replies empty requests, gives.distinct, ?_, ?_, gives.length_statics,
    gives.budget (Nat.zero_le _), ?_⟩
  · rw [gives.returns]
    exact Nat.zero_add _
  · intro before unit index given after e
    exact given_eq e
  · intro unit unit' index index' symbol mem mem'
    apply staticSymbol_inj
    rw [← symbol_eq mem, ← symbol_eq mem']

/-- Requests whose words have the joints and numbers of other names in them. -/
def pretenders : List NameRequest :=
  [.returnLabel ⟨"A", "f$eq"⟩ "lt", .staticCell "A.1" 2, .returnLabel ⟨"A", "f"⟩ "eq$lt",
    .staticCell "A" 1, .returnLabel ⟨"A.f$eq", ""⟩ "lt$1", .staticCell "A.1" 2]

/-- The pretenders get three labels and two cells, one of them twice. -/
theorem pretenders_given_apart :
    ∃ replies ledger, empty.replies pretenders = (replies, ledger) ∧
      NameReply.labels replies = ["A.f$eq$lt$1", "A.f$eq$lt$2", "A.f$eq.$lt$1$3"] ∧
      (NameReply.labels replies).Nodup ∧ ledger.returns = (NameReply.labels replies).length ∧
      replies = replies.take 5 ++ [.cell "A.1" 2 (.ok "A.1.2")] ∧
      ((.ok "A.1.2" : Except Fault String) = if ("A.1", 2) ∈ NameReply.accepted (replies.take 5) ∨
          (NameReply.accepted (replies.take 5)).card < 240
        then .ok (staticSymbol "A.1" 2) else .error (.staticOverflow "A.1" 2)) ∧
      ledger.statics = [("A.1", 2), ("A", 1)] ∧
      ledger.statics.length = (NameReply.accepted replies).card := by
  have last : (empty.replies pretenders).1 =
      (empty.replies pretenders).1.take 5 ++ [.cell "A.1" 2 (.ok "A.1.2")] := by decide +kernel
  obtain ⟨-, distinct, count, rule, cells, -, -⟩ :=
    names_given_apart (rfl : empty.replies pretenders = _)
  exact ⟨_, _, rfl, by decide +kernel, distinct, count, last, rule _ _ _ _ [] last,
    by decide +kernel, cells⟩

end Ledger

end HackVM
