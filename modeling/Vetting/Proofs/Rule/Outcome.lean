import Vetting.Proofs.Rule.Questions

/-!
Contract: what an assertion comes to by itself.

Owns:
- the questions that an assertion gives rise to, whether its guard admits it, and whether the
  evaluator is lacking for it;
- what its rule evaluates to, and the outcome and the issue that tell so;
- how the guard and the rule answer, whatever is done about the questions.

Does not own: a pass over all assertions of a stage (`Vetting.Proofs.Rule.Pass`).

What an assertion comes to depends on the input and the checker alone.  The other assertions only
decide whether a pass gets as far as this one.
-/

namespace Vetting

namespace Rule

open Json (Value)
open Scope (Names StageInput)
open Formula (VerdictFault)

theorem findSome?_toList {α β : Type} (one : Option α) (part : α → Option β) :
    one.toList.findSome? part = one.bind part := by
  cases one <;> simp

/-- What a guard with a verdict says. -/
def GuardAnswer.ofVerdict : Except VerdictFault Bool → GuardAnswer
  | .ok true => .proceed
  | .error (.unavailable detail) => .unavailable detail
  | _ => .passOver

/-- An outcome tells that a rule evaluates to a truth value, or that it ends in an error. -/
inductive Outcome.Tells : Outcome → Option Bool → Prop
  | held : Tells .held (some true)
  | failed : Tells .failed (some false)
  | error (code detail : String) : Tells (.error code detail) none

/-- How grave it is that the rule of an assertion evaluates to a truth value, or to none. -/
def Assertion.gravity (assertion : Assertion) : Option Bool → Severity
  | some true => .success
  | some false => assertion.severity
  | none => .error

namespace Checker

variable (checker : Checker) (input : StageInput)

/-- The answer to a question, within the time limit. -/
def answer (question : Question) : Except VerdictFault Bool :=
  checker.verdict question.expression question.names

/-- The evaluator of a checker, which goes by nothing but the question. -/
def respondent : Respondent := fun _ question => checker.answer question

/-- A question about the names that the assertions of a stage see. -/
def question (expression : String) : Question := ⟨expression, input.names checker.bareKeys⟩

/-- What the evaluator says instead of answering, if it is not available. -/
def lackOf? (question : Question) : Option String :=
  match checker.answer question with
  | .error (.unavailable detail) => some detail
  | _ => none

/-! ### One assertion -/

section Single

variable (assertion : Assertion)

def guardQuestion? : Option Question := assertion.guard?.map (checker.question input)

/-- The question about the rule of an assertion.  Operators and expressions beyond the limits need
no evaluator. -/
def ruleQuestion? : Option Question :=
  match assertion.rule with
  | .operator _ => none
  | .expression expression =>
    if (checker.question input expression).Within checker.limits then
      some (checker.question input expression)
    else none

/-- The guard is absent or holds. -/
def admits : Bool :=
  (checker.guardQuestion? input assertion).all fun question =>
    (checker.answer question).toOption = some true

/-- The questions that an assertion gives rise to. -/
def questions : List Question :=
  (checker.guardQuestion? input assertion).toList ++
    if checker.admits input assertion then (checker.ruleQuestion? input assertion).toList else []

/-- What the evaluator says to the first question of an assertion for which it is lacking. -/
def lack? : Option String := (checker.questions input assertion).findSome? checker.lackOf?

/-- What the rule of an assertion evaluates to, unless it ends in an error. -/
def truth? : Option Bool :=
  match assertion.rule with
  | .operator rule => (rule.holds (input.names checker.bareKeys) input.payload).toOption
  | .expression expression =>
    if (checker.question input expression).Within checker.limits then
      (checker.answer (checker.question input expression)).toOption
    else none

/-- What comes of the rule of an assertion. -/
def outcome : Outcome :=
  match assertion.rule with
  | .operator rule =>
    assertion.operatorOutcome rule (input.names checker.bareKeys) input.payload
  | .expression expression =>
    match assertion.limitFault? expression (input.names checker.bareKeys) checker.limits with
    | some detail => .error "assertion_limit_exceeded" detail
    | none => assertion.outcomeOf (checker.answer (checker.question input expression))

/-- The issue of an assertion for which the evaluator is not lacking. -/
def issueFor : Issue :=
  match assertion.issueOf (input.names checker.bareKeys) input.stage
    (checker.outcome input assertion) with
  | .ok issue => issue
  | .error _ => default

/-- What the guard of an assertion says. -/
def guardReply : GuardAnswer :=
  match checker.guardQuestion? input assertion with
  | none => .proceed
  | some question => .ofVerdict (checker.answer question)

end Single

section Single

variable {checker input} {assertion : Assertion} {detail : String}

theorem lackOf?_eq_some {question : Question} :
    checker.lackOf? question = some detail ↔
      checker.answer question = .error (.unavailable detail) := by
  unfold lackOf?
  split
  · rename_i other lacking
    rw [lacking, Option.some.injEq, Except.error.injEq, VerdictFault.unavailable.injEq]
  · rename_i available
    exact iff_of_false (Option.some_ne_none _).symm (available detail)

theorem lackOf?_eq_none_of_answered {question : Question} {truth : Bool}
    (answered : checker.answer question = .ok truth) : checker.lackOf? question = none := by
  rw [lackOf?, answered]

theorem admits_of_guard {question : Question}
    (isGuard : checker.guardQuestion? input assertion = some question) :
    checker.admits input assertion = true ↔ checker.answer question = .ok true := by
  rw [admits, isGuard, Option.all_some, decide_eq_true_eq]
  cases checker.answer question <;> simp [Except.toOption]

theorem guardReply_of_admits (admitted : checker.admits input assertion = true) :
    checker.guardReply input assertion = .proceed := by
  unfold guardReply
  split
  · rfl
  · rename_i question isGuard
    rw [(admits_of_guard isGuard).mp admitted]
    rfl

theorem lack?_of_not_admits (refused : ¬ checker.admits input assertion = true) :
    checker.lack? input assertion =
      (checker.guardQuestion? input assertion).bind checker.lackOf? := by
  rw [lack?, questions, if_neg refused, List.append_nil, findSome?_toList]

theorem guardReply_of_not_admits (refused : ¬ checker.admits input assertion = true) :
    checker.guardReply input assertion =
      ((checker.lack? input assertion).map .unavailable).getD .passOver := by
  rw [lack?_of_not_admits refused]
  unfold guardReply
  split
  · rename_i unguarded
    rw [admits, unguarded] at refused
    exact absurd rfl refused
  · rename_i question isGuard
    rw [admits_of_guard isGuard] at refused
    rw [isGuard, Option.bind_some, lackOf?]
    match checker.answer question, refused with
    | .ok true, refused => exact absurd rfl refused
    | .ok false, _ => rfl
    | .error fault, _ => cases fault <;> rfl

theorem lack?_of_admits (admitted : checker.admits input assertion = true) :
    checker.lack? input assertion =
      (checker.ruleQuestion? input assertion).bind checker.lackOf? := by
  have guardAnswered :
      (checker.guardQuestion? input assertion).bind checker.lackOf? = none := by
    cases isGuard : checker.guardQuestion? input assertion with
    | none => rfl
    | some question =>
      exact lackOf?_eq_none_of_answered ((admits_of_guard isGuard).mp admitted)
  rw [lack?, questions, if_pos admitted, List.findSome?_append, findSome?_toList, guardAnswered,
    findSome?_toList, Option.none_or]

theorem tells_operatorOutcome (rule : OperatorRule) (names : Names) (payload : Value) :
    (assertion.operatorOutcome rule names payload).Tells (rule.holds names payload).toOption := by
  unfold Assertion.operatorOutcome
  match rule.holds names payload with
  | .ok true => exact .held
  | .ok false => exact .failed
  | .error fault => exact .error _ _

theorem tells_outcomeOf {verdict : Except VerdictFault Bool}
    (available : ∀ detail, verdict ≠ .error (.unavailable detail)) :
    (assertion.outcomeOf verdict).Tells verdict.toOption := by
  match verdict, available with
  | .ok true, _ => exact .held
  | .ok false, _ => exact .failed
  | .error (.unavailable detail), available => exact absurd rfl (available detail)
  | .error (.parse _), _ => exact .error _ _
  | .error (.unknownIdentifier _), _ => exact .error _ _
  | .error (.runtime _), _ => exact .error _ _
  | .error (.notBoolean _), _ => exact .error _ _
  | .error (.timeout _), _ => exact .error _ _

section Expression

variable {expression : String} (isRule : assertion.rule = .expression expression)

include isRule

theorem outcome_of_within
    (within : (checker.question input expression).Within checker.limits) :
    checker.ruleQuestion? input assertion = some (checker.question input expression) ∧
      checker.truth? input assertion =
        (checker.answer (checker.question input expression)).toOption ∧
      checker.outcome input assertion =
        assertion.outcomeOf (checker.answer (checker.question input expression)) := by
  have inLimits : assertion.limitFault? expression (input.names checker.bareKeys) checker.limits =
      none := Assertion.limitFault?_eq_none.mpr within
  refine ⟨?_, ?_, ?_⟩
  · simp only [ruleQuestion?, isRule, if_pos within]
  · simp only [truth?, isRule, if_pos within]
  · simp only [outcome, isRule, inLimits]

theorem outcome_of_not_within
    (beyond : ¬ (checker.question input expression).Within checker.limits) :
    checker.ruleQuestion? input assertion = none ∧ checker.truth? input assertion = none ∧
      ∃ detail, checker.outcome input assertion = .error "assertion_limit_exceeded" detail := by
  have fault : assertion.limitFault? expression (input.names checker.bareKeys) checker.limits ≠
      none := fun none => beyond (Assertion.limitFault?_eq_none.mp none)
  obtain ⟨detail, isFault⟩ := Option.ne_none_iff_exists'.mp fault
  refine ⟨?_, ?_, detail, ?_⟩
  · simp only [ruleQuestion?, isRule, if_neg beyond]
  · simp only [truth?, isRule, if_neg beyond]
  · simp only [outcome, isRule, isFault]

end Expression

/-- If the evaluator is lacking for the question about a rule, that is what comes of the rule. -/
theorem outcome_of_lacking
    (lacking : (checker.ruleQuestion? input assertion).bind checker.lackOf? = some detail) :
    checker.outcome input assertion = .unavailable detail := by
  cases isRule : assertion.rule with
  | operator rule =>
    rw [ruleQuestion?, isRule] at lacking
    cases lacking
  | expression expression =>
    by_cases within : (checker.question input expression).Within checker.limits
    · obtain ⟨asks, -, isOutcome⟩ := outcome_of_within isRule within
      rw [asks, Option.bind_some, lackOf?_eq_some] at lacking
      rw [isOutcome, lacking]
      rfl
    · rw [(outcome_of_not_within isRule within).1] at lacking
      cases lacking

/-- Otherwise the outcome of a rule tells what the rule evaluates to. -/
theorem tells_outcome
    (available : (checker.ruleQuestion? input assertion).bind checker.lackOf? = none) :
    (checker.outcome input assertion).Tells (checker.truth? input assertion) := by
  cases isRule : assertion.rule with
  | operator rule =>
    rw [outcome, truth?, isRule]
    exact tells_operatorOutcome _ _ _
  | expression expression =>
    by_cases within : (checker.question input expression).Within checker.limits
    · obtain ⟨asks, isTruth, isOutcome⟩ := outcome_of_within isRule within
      rw [asks, Option.bind_some] at available
      rw [isOutcome, isTruth]
      refine tells_outcomeOf fun detail lacking => ?_
      rw [lackOf?_eq_some.mpr lacking] at available
      cases available
    · obtain ⟨-, isTruth, detail, isOutcome⟩ := outcome_of_not_within isRule within
      rw [isOutcome, isTruth]
      exact .error _ _

/-- The issue of an assertion stands for it, and is as grave as what its rule evaluates to. -/
theorem issueOf_outcome
    (available : (checker.ruleQuestion? input assertion).bind checker.lackOf? = none) :
    assertion.issueOf (input.names checker.bareKeys) input.stage
        (checker.outcome input assertion) = .ok (checker.issueFor input assertion) ∧
      (checker.issueFor input assertion).assertionId = some assertion.id ∧
      (checker.issueFor input assertion).severity =
        assertion.gravity (checker.truth? input assertion) := by
  have tells := tells_outcome available
  unfold issueFor
  generalize checker.outcome input assertion = result at tells ⊢
  generalize checker.truth? input assertion = truth at tells ⊢
  cases tells <;> exact ⟨rfl, rfl, rfl⟩

end Single

/-! ### Asking and answering -/

section Monadic

variable {m : Type → Type} [Monad m] [LawfulMonad m]

/-- Answers a question after something has been done about it. -/
def asking (note : Question → m Unit) (expression : String) (names : Names) :
    m (Except VerdictFault Bool) := do
  note ⟨expression, names⟩
  return checker.verdict expression names

variable (note : Question → m Unit)

/-- The guard of an assertion is asked, and then it has said what it says. -/
theorem guardAnswer_asking (assertion : Assertion) :
    guardAnswer (checker.asking note) (input.names checker.bareKeys) assertion =
      (checker.guardQuestion? input assertion).toList.forM note >>=
        fun _ => pure (checker.guardReply input assertion) := by
  unfold guardAnswer guardReply guardQuestion?
  cases assertion.guard? with
  | none => simp
  | some guard =>
    simp only [asking, question, answer, Option.map_some, Option.toList_some, List.forM_eq_forM,
      List.forM_cons, List.forM_nil, bind_assoc, pure_bind]
    refine bind_congr fun _ => ?_
    match checker.verdict guard (input.names checker.bareKeys) with
    | .ok true => rfl
    | .ok false => rfl
    | .error fault => cases fault <;> rfl

theorem mainOutcome_asking (assertion : Assertion) :
    mainOutcome (checker.asking note) checker.limits (input.names checker.bareKeys) input.payload
        assertion =
      (checker.ruleQuestion? input assertion).toList.forM note >>=
        fun _ => pure (checker.outcome input assertion) := by
  cases isRule : assertion.rule with
  | operator rule => simp [mainOutcome, ruleQuestion?, outcome, isRule]
  | expression expression =>
    cases fault : assertion.limitFault? expression (input.names checker.bareKeys)
      checker.limits with
    | none =>
      have within : (checker.question input expression).Within checker.limits :=
        Assertion.limitFault?_eq_none.mp fault
      obtain ⟨asks, -, isOutcome⟩ := outcome_of_within isRule within
      rw [asks, isOutcome]
      simp [mainOutcome, isRule, fault, asking, question, answer]
    | some detail =>
      have beyond : ¬ (checker.question input expression).Within checker.limits := fun within =>
        Option.some_ne_none detail (fault.symm.trans (Assertion.limitFault?_eq_none.mpr within))
      simp [mainOutcome, ruleQuestion?, outcome, isRule, fault, beyond]

end Monadic

end Checker

end Rule

end Vetting
