import Vetting.Rule.Report

/-!
Contract: the questions that a pass over assertions puts to the evaluator.

Owns:
- `Question`, and when it is within the limits on expressions;
- `Respondent`: an evaluator that may go by the questions before, and the questions taken down on
  a pass;
- `PutsOnly`: a part of a pass asks no other questions than those of a kind;
- what is asked on a pass: guards, of whatever length and under however many names, and the
  expressions of rules that are within the limits.

Does not own: the report of a pass (`Vetting.Proofs.Rule.Pass`).

Limits are looked at in front of the rule of an assertion, and not in front of its guard.
-/

namespace Vetting

namespace Rule

open Json (Value)
open Scope (Names StageInput)
open Formula (VerdictFault)

/-- An expression that is to be evaluated under visible names. -/
structure Question where
  expression : String
  names : Names

/-- The expression is not too long, and the names are not too many. -/
def Question.Within (question : Question) (limits : Limits) : Prop :=
  question.expression.length ≤ limits.maxExpressionLength ∧
    question.names.size ≤ limits.maxContextBytes

instance (question : Question) (limits : Limits) : Decidable (question.Within limits) :=
  inferInstanceAs (Decidable (_ ∧ _))

theorem Assertion.limitFault?_eq_none {assertion : Assertion} {question : Question}
    {limits : Limits} :
    assertion.limitFault? question.expression question.names limits = none ↔
      question.Within limits := by
  unfold limitFault? Question.Within
  split
  · rename_i long
    exact iff_of_false (Option.some_ne_none _) fun within => Nat.not_le_of_gt long within.1
  · rename_i short
    split
    · rename_i large
      exact iff_of_false (Option.some_ne_none _) fun within => Nat.not_le_of_gt large within.2
    · rename_i small
      exact iff_of_true rfl ⟨Nat.le_of_not_gt short, Nat.le_of_not_gt small⟩

/-- An evaluator whose answers may go by the questions before. -/
abbrev Respondent : Type := List Question → Question → Except VerdictFault Bool

namespace Respondent

variable (respondent : Respondent)

/-- Takes a question down and answers it. -/
def ask (expression : String) (names : Names) :
    StateM (List Question) (Except VerdictFault Bool) := do
  let earlier ← get
  set (earlier ++ [⟨expression, names⟩])
  return respondent earlier ⟨expression, names⟩

/-- The report of a pass, and the questions asked on it. -/
def hearing (limits : Limits) (bareKeys : Bool) (assertions : List Assertion)
    (input : StageInput) : Report × List Question :=
  (checkWith respondent.ask limits bareKeys assertions input).run []

end Respondent

/-- A part of a pass asks no other questions than those of a kind. -/
def PutsOnly {α : Type} (kind : Question → Prop) (part : StateM (List Question) α) : Prop :=
  ∀ earlier, ∀ question ∈ (part.run earlier).2, question ∈ earlier ∨ kind question

section PutsOnly

variable {α β : Type} {kind : Question → Prop}

theorem putsOnly_pure (value : α) : PutsOnly kind (pure value) :=
  fun _ _ asked => .inl asked

theorem PutsOnly.bind {part : StateM (List Question) α} {next : α → StateM (List Question) β}
    (first : PutsOnly kind part) (then_ : ∀ value, PutsOnly kind (next value)) :
    PutsOnly kind (part >>= next) := by
  intro earlier question asked
  rcases then_ _ _ question asked with before | ofKind
  · exact first earlier question before
  · exact .inr ofKind

theorem putsOnly_ask (respondent : Respondent) {expression : String} {names : Names}
    (ofKind : kind ⟨expression, names⟩) : PutsOnly kind (respondent.ask expression names) := by
  intro earlier question asked
  rcases List.mem_append.mp asked with before | here
  · exact .inl before
  · obtain rfl := List.mem_singleton.mp here
    exact .inr ofKind

theorem putsOnly_guardAnswer (respondent : Respondent) (names : Names) (assertion : Assertion)
    (ofKind : ∀ guard, assertion.guard? = some guard → kind ⟨guard, names⟩) :
    PutsOnly kind (guardAnswer respondent.ask names assertion) := by
  unfold guardAnswer
  split
  · exact putsOnly_pure _
  · rename_i guard isGuard
    refine (putsOnly_ask respondent (ofKind guard isGuard)).bind fun verdict => ?_
    split <;> exact putsOnly_pure _

theorem putsOnly_mainOutcome (respondent : Respondent) (limits : Limits) (names : Names)
    (payload : Value) (assertion : Assertion)
    (ofKind : ∀ expression, assertion.rule = .expression expression →
      Question.Within ⟨expression, names⟩ limits → kind ⟨expression, names⟩) :
    PutsOnly kind (mainOutcome respondent.ask limits names payload assertion) := by
  unfold mainOutcome
  split
  · exact putsOnly_pure _
  · rename_i expression isRule
    split
    · exact putsOnly_pure _
    · rename_i inLimits
      have within : Question.Within ⟨expression, names⟩ limits :=
        Assertion.limitFault?_eq_none.mp inLimits
      exact (putsOnly_ask respondent (ofKind expression isRule within)).bind
        fun _ => putsOnly_pure _

theorem putsOnly_checkEach (respondent : Respondent) (limits : Limits) (names : Names)
    (payload : Value) (stage : Stage) (assertions : List Assertion)
    (guards : ∀ assertion ∈ assertions, ∀ guard, assertion.guard? = some guard →
      kind ⟨guard, names⟩)
    (rules : ∀ assertion ∈ assertions, ∀ expression, assertion.rule = .expression expression →
      Question.Within ⟨expression, names⟩ limits → kind ⟨expression, names⟩) :
    PutsOnly kind (checkEach respondent.ask limits names payload stage assertions) := by
  induction assertions with
  | nil => exact putsOnly_pure _
  | cons assertion rest inductionHypothesis =>
    have later := inductionHypothesis
      (fun other member => guards other (.tail _ member))
      (fun other member => rules other (.tail _ member))
    refine (putsOnly_guardAnswer respondent names assertion (guards _ (.head _))).bind
      fun answer => ?_
    cases answer with
    | unavailable detail => exact putsOnly_pure _
    | passOver => exact later
    | proceed =>
      refine (putsOnly_mainOutcome respondent limits names payload assertion
        (rules _ (.head _))).bind fun outcome => ?_
      split
      · exact putsOnly_pure _
      · exact later.bind fun _ => putsOnly_pure _

end PutsOnly

/-- The question is the guard of an assertion, or the expression of its rule and within limits. -/
def Assertion.MayAsk (assertion : Assertion) (limits : Limits) (question : Question) : Prop :=
  assertion.guard? = some question.expression ∨
    assertion.rule = .expression question.expression ∧ question.Within limits

theorem Respondent.mem_hearing {respondent : Respondent} {limits : Limits} {bareKeys : Bool}
    {assertions : List Assertion} {input : StageInput} {question : Question}
    (asked : question ∈ (respondent.hearing limits bareKeys assertions input).2) :
    question.names = input.names bareKeys ∧
      ∃ assertion ∈ assertions, assertion.stage = input.stage ∧
        assertion.MayAsk limits question := by
  have only : PutsOnly
      (fun question => question.names = input.names bareKeys ∧
        ∃ assertion ∈ assertions, assertion.stage = input.stage ∧
          assertion.MayAsk limits question)
      (checkWith respondent.ask limits bareKeys assertions input) := by
    apply putsOnly_checkEach
    · intro assertion member guard isGuard
      obtain ⟨listed, ofStage⟩ := List.mem_filter.mp member
      exact ⟨rfl, assertion, listed, of_decide_eq_true ofStage, .inl isGuard⟩
    · intro assertion member expression isRule within
      obtain ⟨listed, ofStage⟩ := List.mem_filter.mp member
      exact ⟨rfl, assertion, listed, of_decide_eq_true ofStage, .inr ⟨isRule, within⟩⟩
  exact (only [] question asked).resolve_left List.not_mem_nil

/-- Whatever is asked on a pass is the guard of an assertion of the stage, or else the expression
of its rule within the limits.  So nothing beyond the limits is asked unless it is a guard. -/
theorem Respondent.asked_within_or_guard (respondent : Respondent) (limits : Limits)
    (bareKeys : Bool) (assertions : List Assertion) (input : StageInput) :
    (∀ question ∈ (respondent.hearing limits bareKeys assertions input).2,
      question.names = input.names bareKeys ∧
        ∃ assertion ∈ assertions, assertion.stage = input.stage ∧
          (assertion.guard? = some question.expression ∨
            assertion.rule = .expression question.expression ∧ question.Within limits)) ∧
    ((∀ question ∈ (respondent.hearing limits bareKeys assertions input).2,
        question.Within limits) ↔
      ∀ question ∈ (respondent.hearing limits bareKeys assertions input).2,
        ∀ assertion ∈ assertions, assertion.stage = input.stage →
          assertion.guard? = some question.expression → question.Within limits) := by
  refine ⟨fun question asked => mem_hearing asked,
    fun within question asked _ _ _ _ => within question asked, ?_⟩
  intro guarded question asked
  obtain ⟨_, assertion, listed, ofStage, isGuard | ⟨_, within⟩⟩ := mem_hearing asked
  · exact guarded question asked assertion listed ofStage isGuard
  · exact within

end Rule

namespace Example

open Rule Scope

/-- An assertion about a count that is checked only for orders. -/
def counted : Assertion :=
  { Assertion.plain "counted" (.expression "n > 1") with guard? := some "payload.kind == 1" }

/-- Expressions may have as many characters as the rule of `counted`. -/
def tight : Limits := { Limits.standard with maxExpressionLength := 5 }

/-- A document without names. -/
def blank : StageInput := ⟨.input, .object [], [], []⟩

/-- An evaluator to which everything holds. -/
def agreeable : Respondent := fun _ _ => .ok true

theorem hearing_counted :
    (agreeable.hearing tight true [counted] blank).2 =
      [⟨"payload.kind == 1", []⟩, ⟨"n > 1", []⟩] :=
  rfl

/-- The rule of `counted` is within its limits, and so is its guard under the usual ones. -/
theorem asked_counted :
    (Question.mk "n > 1" [] ∈ (agreeable.hearing tight true [counted] blank).2 ∧
      ∃ assertion ∈ [counted], assertion.stage = .input ∧
        (assertion.guard? = some "n > 1" ∨
          assertion.rule = .expression "n > 1" ∧ Question.Within ⟨"n > 1", []⟩ tight)) ∧
      ∀ question ∈ (agreeable.hearing .standard true [counted] blank).2,
        question.Within .standard := by
  have asked : Question.mk "n > 1" [] ∈ (agreeable.hearing tight true [counted] blank).2 := by
    rw [hearing_counted]
    exact .tail _ (.head _)
  refine ⟨⟨asked, ((agreeable.asked_within_or_guard tight true [counted] blank).1 _ asked).2⟩, ?_⟩
  refine (agreeable.asked_within_or_guard .standard true [counted] blank).2.mpr ?_
  intro question asked assertion listed _ isGuard
  obtain rfl := List.mem_singleton.mp listed
  obtain ⟨expression, names⟩ := question
  obtain rfl : "payload.kind == 1" = expression := Option.some.inj isGuard
  obtain rfl : names = [] :=
    ((agreeable.asked_within_or_guard .standard true [counted] blank).1 _ asked).1
  decide

/-- A guard is asked however long it is. -/
theorem not_asked_within :
    ¬ ∀ (respondent : Respondent) (limits : Limits) (bareKeys : Bool)
      (assertions : List Assertion) (input : StageInput),
      ∀ question ∈ (respondent.hearing limits bareKeys assertions input).2,
        question.Within limits := by
  intro claimed
  have within := claimed agreeable tight true [counted] blank
  rw [hearing_counted] at within
  have short := within _ (.head _)
  revert short
  decide

end Example

end Vetting
