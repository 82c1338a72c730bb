import Mathlib
import HackVM.Draft
import HackVM.Proofs.Lowering

/-!
# Refused requests

A request works on a draft in place, so that it would leave traces if it were stopped by a check behind a
change. It leaves none: `Drafting.run_lower` says that the commands are lowered in place as they are lowered
as a whole, and a command that is refused as a whole changes nothing. Only a function that is finished in
vain forgets its labels. So the requests that are refused can be left out of a run.
-/

namespace HackVM

/-- What becomes of a draft by lowering as a whole: the code is written and the ledger is replaced, or
neither. -/
def Draft.settle (draft : Draft) : Lowered → EStateM.Result Fault Draft Unit
  | .ok (code, ledger) => .ok () ⟨draft.code ++ code, ledger⟩
  | .error fault => .error fault draft

/-- What becomes of a draft by a change of its ledger alone. -/
def Draft.adopt (draft : Draft) : Except Fault Ledger → EStateM.Result Fault Draft Unit
  | .ok ledger => .ok () { draft with ledger }
  | .error fault => .error fault draft

namespace Drafting

variable {draft : Draft} {site : Site}

/-- Asking for the ledger changes nothing. -/
lemma run_ledger : ledger.run draft = .ok draft.ledger draft := rfl

/-- Noting something changes the ledger alone. -/
lemma run_note (change : Ledger → Ledger) :
    (note change).run draft = .ok () { draft with ledger := change draft.ledger } := rfl

/-- A static variable is reserved in place as it is in a ledger, and a full table stays as it is. -/
lemma run_reserve (segment : Segment) (index : UInt16) :
    (reserve site segment index).run draft = draft.adopt (site.reserve segment index draft.ledger) := by
  unfold reserve Site.reserve Draft.adopt
  rw [EStateM.run_bind, run_ledger]
  cases segment with
  | statics =>
    unfold Ledger.reserve
    by_cases found : (site.scope.unit, index) ∈ draft.ledger.statics
    · simp [found]
    · by_cases full : staticLimit ≤ draft.ledger.statics.length
      · simp [found, full]
      · simp [found, full, run_note]
  | _ => simp

/-- Declaring a label in place does what it does to the ledger. -/
lemma run_declareLabel (scope : Scope) (name : String) :
    (declareLabel scope name).run draft = draft.adopt (draft.ledger.declareLabel scope name) := by
  unfold declareLabel Ledger.declareLabel Draft.adopt
  rw [EStateM.run_bind, run_ledger]
  by_cases found : name ∈ draft.ledger.labels.declared
  · simp [found]
  · simp [found, run_note]

/-- Pushing in place does what lowering says. -/
lemma run_push (segment : Segment) (index : UInt16) :
    (push site segment index).run draft =
      draft.settle (site.lowerPush segment index draft.ledger) := by
  unfold push Site.lowerPush
  cases site.resolve segment index with
  | error fault => rfl
  | ok location =>
    simp only [check, pure_bind]
    rw [EStateM.run_bind, run_reserve]
    cases site.reserve segment index draft.ledger with
    | error fault => rfl
    | ok after => rfl

/-- Popping in place does what lowering says. -/
lemma run_pop (segment : Segment) (index : UInt16) :
    (pop site segment index).run draft =
      draft.settle (site.lowerPop segment index draft.ledger) := by
  unfold pop Site.lowerPop
  cases site.resolve segment index with
  | error fault => rfl
  | ok location =>
    simp only [check, pure_bind, ok_bind]
    cases location.popCode? with
    | none => rfl
    | some code =>
      rw [EStateM.run_bind, run_reserve]
      cases site.reserve segment index draft.ledger with
      | error fault => rfl
      | ok after => rfl

/-- An operation in place does what lowering says. -/
lemma run_operate (operation : Operation) :
    (operate site operation).run draft =
      draft.settle (.ok (site.lowerOperation operation draft.ledger)) := rfl

/-- A label in place does what lowering says. -/
lemma run_label (name : String) :
    (label site name).run draft = draft.settle (site.lowerLabel name draft.ledger) := by
  unfold label Site.lowerLabel
  cases site.checkName name with
  | error fault => rfl
  | ok legal =>
    simp only [check, pure_bind]
    rw [EStateM.run_bind, run_declareLabel]
    cases draft.ledger.declareLabel site.scope name with
    | error fault => rfl
    | ok after => rfl

/-- A jump in place checks its label and refers to it. -/
lemma run_goto (name : String) (code : String → Code) :
    (goto site name code).run draft = draft.settle (do
      site.checkName name
      return (code (site.scope.userLabel name), draft.ledger.referToLabel name)) := by
  unfold goto
  cases site.checkName name with
  | error fault => rfl
  | ok legal => rfl

/-- The start of a function in place does what lowering says. -/
lemma run_function (locals inlineMax : UInt16) :
    (function site locals inlineMax).run draft =
      draft.settle (site.lowerFunction locals inlineMax draft.ledger) := by
  unfold function Site.lowerFunction
  by_cases large : maxImmediate < locals
  · rw [if_pos large, if_pos large]
    rfl
  · rw [if_neg large, if_neg large]
    -- The label and the prologue are written one after the other.
    show EStateM.Result.ok () (⟨draft.code ++ [_] ++ _, _⟩ : Draft) = _
    rw [List.append_assoc]
    rfl

/-- A call in place does what lowering says. -/
lemma run_call (name : String) (arguments : UInt16) :
    (call site name arguments).run draft =
      draft.settle (site.lowerCall name arguments draft.ledger) := by
  unfold call Site.lowerCall
  by_cases large : maxImmediate < arguments
  · rw [if_pos large, if_pos large]
    rfl
  · rw [if_neg large, if_neg large, EStateM.run_bind, run_ledger]
    dsimp only
    cases draft.ledger.entry? name with
    | none => rfl
    | some target => rfl

/-- A command is lowered in place as it is lowered as a whole. -/
lemma run_lower (inlineMax : UInt16) (command : Command) :
    (lower site inlineMax command).run draft =
      draft.settle (site.lower inlineMax command draft.ledger) := by
  cases command with
  | push segment index => exact run_push segment index
  | pop segment index => exact run_pop segment index
  | operate operation => exact run_operate operation
  | label name => exact run_label name
  | goto name => exact run_goto name Code.goto
  | ifGoto name => exact run_goto name fun target => Code.popD ++ Code.branch target .ifNonzero
  | function name locals => exact run_function locals inlineMax
  | call name arguments => exact run_call name arguments
  | ret => rfl

/-- Defining a function in place does what it does to the ledger. -/
lemma run_define (name unit : String) :
    (define name unit).run draft = draft.adopt (draft.ledger.define name unit) := by
  unfold define Ledger.define
  rw [EStateM.run_bind, run_ledger]
  dsimp only
  cases draft.ledger.functions.lookup name with
  | none => rfl
  | some first => rfl

end Drafting

/-- Asks for a function to be finished. -/
def Request.finishes : Request → Bool
  | .finish _ => true
  | _ => false

/-- A request that a draft was asked, and what came of it. -/
structure Step where
  request : Request
  before : Draft
  after : Draft
  outcome : Option Fault
deriving DecidableEq

/-- The request was stopped by a fault. To finish a function in vain is not to be refused, for its labels
are forgotten all the same. -/
def Step.refused (step : Step) : Bool :=
  step.outcome.isSome && !step.request.finishes

namespace Draft

variable (draft : Draft)

/-- The step that a request makes a draft take. -/
def step (request : Request) : Step :=
  ⟨request, draft, (draft.perform request).1, (draft.perform request).2⟩

/-- The steps of a draft that is asked one request after the other. -/
def steps (draft : Draft) : List Request → List Step
  | [] => []
  | request :: rest => draft.step request :: steps (draft.perform request).1 rest

/-- The requests without those that are refused. -/
def kept (requests : List Request) : List Request :=
  ((draft.steps requests).filter (!·.refused)).map Step.request

variable {draft}

/-- A draft is left alone where lowering fails. -/
lemma settle_error {lowered : Lowered} {fault : Fault} {after : Draft}
    (h : draft.settle lowered = .error fault after) : after = draft := by
  cases lowered with
  | ok _ => cases h
  | error _ =>
    cases h
    rfl

/-- A draft is left alone where the change of its ledger fails. -/
lemma adopt_error {outcome : Except Fault Ledger} {fault : Fault} {after : Draft}
    (h : draft.adopt outcome = .error fault after) : after = draft := by
  cases outcome with
  | ok _ => cases h
  | error _ =>
    cases h
    rfl

/-- Work that is stopped leaves no trace, unless it finishes a function. -/
lemma eq_of_run_work_error {request : Request} {fault : Fault} {after : Draft}
    (hf : request.finishes = false) (h : request.work.run draft = .error fault after) :
    after = draft := by
  cases request with
  | define name unit =>
    rw [Request.work, Drafting.run_define] at h
    exact adopt_error h
  | lower site inlineMax command =>
    rw [Request.work, Drafting.run_lower] at h
    exact settle_error h
  | finish scope => cases hf
  | write code => cases h

/-- A request that fails leaves the draft alone, unless it closes a function. -/
lemma perform_of_fault {request : Request} {fault : Fault} (hf : request.finishes = false)
    (h : (draft.perform request).2 = some fault) : (draft.perform request).1 = draft := by
  unfold perform at h ⊢
  cases e : request.work.run draft with
  | ok _ after =>
    rw [e] at h
    cases h
  | error fault' after => exact eq_of_run_work_error hf e

/-- A request that is refused leaves the draft alone. -/
lemma perform_of_refused {request : Request} (h : (draft.step request).refused = true) :
    (draft.perform request).1 = draft := by
  obtain ⟨stopped, hf⟩ := Bool.and_eq_true_iff.mp h
  obtain ⟨fault, e⟩ := Option.isSome_iff_exists.mp stopped
  exact perform_of_fault (Bool.not_eq_true' _ ▸ hf) e

/-- Requests are performed one after the other. -/
lemma performAll_cons (request : Request) (rest : List Request) :
    draft.performAll (request :: rest) =
      (((draft.perform request).1.performAll rest).1,
        (draft.perform request).2 :: ((draft.perform request).1.performAll rest).2) := rfl

/-- A refused request is not kept. -/
lemma kept_cons_of_refused {request : Request} {rest : List Request}
    (h : (draft.step request).refused = true) : draft.kept (request :: rest) = draft.kept rest := by
  unfold kept
  rw [steps, List.filter_cons_of_neg (by simp [h]), perform_of_refused h]

/-- Any other request is kept. -/
lemma kept_cons_of_not_refused {request : Request} {rest : List Request}
    (h : (draft.step request).refused = false) :
    draft.kept (request :: rest) = request :: (draft.perform request).1.kept rest := by
  unfold kept
  rw [steps, List.filter_cons_of_pos (by simp [h]), List.map_cons]
  rfl

/-- The outcomes of a run are those of its steps. -/
lemma performAll_snd (requests : List Request) :
    (draft.performAll requests).2 = (draft.steps requests).map Step.outcome := by
  induction requests generalizing draft with
  | nil => rfl
  | cons request rest ih =>
    rw [performAll_cons, steps, List.map_cons, ← ih]
    rfl

/-- The requests that are not refused make a draft take the same steps on their own. -/
lemma steps_kept (requests : List Request) :
    draft.steps (draft.kept requests) = (draft.steps requests).filter (!·.refused) := by
  induction requests generalizing draft with
  | nil => rfl
  | cons request rest ih =>
    cases h : (draft.step request).refused with
    | true =>
      rw [kept_cons_of_refused h, ih, steps, List.filter_cons_of_neg (by simp [h]),
        perform_of_refused h]
    | false =>
      rw [kept_cons_of_not_refused h, steps, steps, List.filter_cons_of_pos (by simp [h]), ih]

/-- The requests that are not refused lead to the same draft on their own. -/
lemma performAll_kept (requests : List Request) :
    (draft.performAll (draft.kept requests)).1 = (draft.performAll requests).1 := by
  induction requests generalizing draft with
  | nil => rfl
  | cons request rest ih =>
    rw [performAll_cons]
    cases h : (draft.step request).refused with
    | true => rw [kept_cons_of_refused h, perform_of_refused h, ih]
    | false => rw [kept_cons_of_not_refused h, performAll_cons, ih]

/-- A command is lowered in place as it is as a whole, and a request that is refused leaves the draft as it
was, code and ledger. So a run takes the same steps, each from the same draft to the same draft with the
same outcome, and ends in the same draft, if the requests that are refused are left out. -/
theorem performAll_without_refused (draft : Draft) :
    (∀ site inlineMax command, (Request.lower site inlineMax command).work.run draft =
      draft.settle (site.lower inlineMax command draft.ledger)) ∧
    (∀ request fault, request.finishes = false → (draft.perform request).2 = some fault →
      (draft.perform request).1 = draft) ∧
    ∀ requests,
      (draft.performAll requests).2 = (draft.steps requests).map Step.outcome ∧
      draft.steps (draft.kept requests) = (draft.steps requests).filter (!·.refused) ∧
      (draft.performAll (draft.kept requests)).1 = (draft.performAll requests).1 := by
  refine ⟨?_, ?_, fun requests => ⟨?_, ?_, ?_⟩⟩
  · exact fun site inlineMax command => Drafting.run_lower inlineMax command
  · exact fun request fault hf h => perform_of_fault hf h
  · exact performAll_snd requests
  · exact steps_kept requests
  · exact performAll_kept requests

/-- The requests of a writer who gets every second thing wrong. -/
def fumbles : List Request :=
  let site : Site := ⟨⟨"Main", "Main.run"⟩, 7⟩
  [ .define "Main.run" "Main", .define "Main.run" "Other",
    .lower site 1 (.function "Main.run" 2), .lower site 1 (.function "Main.run" 40000),
    .lower site 1 (.label "LOOP"), .lower site 1 (.label "LOOP"),
    .lower site 1 (.push .statics 3), .lower site 1 (.push .pointer 2),
    .lower site 1 (.operate (.compare .eq)), .lower site 1 (.pop .constant 1),
    .lower site 1 (.ifGoto "LOOP"), .lower site 1 (.goto "9x"),
    .lower site 1 (.call "Main.run" 0), .lower site 1 (.call "Main.none" 0),
    .lower site 1 (.goto "GONE"), .finish site.scope, .finish site.scope ]

/-- The fumbled requests, without the refused ones, make the same draft. -/
theorem fumbles_without_refused :
    (empty.performAll fumbles).2.map Option.isSome =
      [false, true, false, true, false, true, false, true, false, true, false, true, false, true,
        false, true, false] ∧
    (empty.kept fumbles).length = 10 ∧
    empty.steps (empty.kept fumbles) = (empty.steps fumbles).filter (!·.refused) ∧
    (empty.performAll (empty.kept fumbles)).1 = (empty.performAll fumbles).1 ∧
    ((empty.performAll fumbles).1.perform (.define "Main.run" "Other")).1 =
      (empty.performAll fumbles).1 := by
  refine ⟨by decide +kernel, by decide +kernel, (performAll_without_refused empty).2.2 fumbles |>.2.1,
    (performAll_without_refused empty).2.2 fumbles |>.2.2, ?_⟩
  exact (performAll_without_refused _).2.1 _ (.functionRedefinition "Main.run" "Main" "Other") rfl
    (by decide +kernel)

end Draft

end HackVM
