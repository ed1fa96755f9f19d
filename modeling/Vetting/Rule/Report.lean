import Vetting.Rule.Assertion
import Vetting.Finding.Issue
import Vetting.Formula.Evaluation
import Vetting.Scope.Placeholder

/-!
Contract: checking the assertions of a stage.

Owns:
- limits on time, expressions and visible names;
- the issue that each assertion leaves;
- the report of a pass over all assertions of a stage.

Does not own: what follows from a report for a step.

An assertion whose guard is false or has no answer leaves no issue.  If the
evaluator is not available the pass ends there, with one issue that says so.  The
evaluator is asked only through one function, in any monad, so that the questions
put to it can be observed.
-/

namespace Vetting.Rule

open Json (Value)
open Scope (Names StageInput)
open Formula (VerdictFault Evaluator)

/-- Limits on the evaluation of expressions. -/
structure Limits where
  timeoutMs : Nat
  /-- The characters an expression may have. -/
  maxExpressionLength : Nat
  /-- The size that the visible names may have. -/
  maxContextBytes : Nat
deriving DecidableEq, Inhabited

def Limits.standard : Limits := ⟨1000, 2000, 256 * 1024⟩

/-- What a pass over the assertions of a stage leaves. -/
structure Report where
  issues : List Issue
  /-- The evaluator was not available and the pass ended early. -/
  halted : Bool
deriving Inhabited

namespace Report

def empty : Report := ⟨[], false⟩

def stats (report : Report) : AssertionStats := .ofIssues report.issues

/-- The report of a pass that ends because the evaluator is not available. -/
def unavailable (stage : Stage) (detail : String) : Report where
  issues := [{
    Issue.error "evaluator_unavailable"
      ("Assertion evaluator unavailable; " ++ stage.name ++ " assertions were not evaluated.") with
    details := .object [("detail", .text detail), ("stage", .text stage.name)] }]
  halted := true

end Report

/-- What has come of an assertion. -/
inductive Outcome where
  | held
  | failed
  | error (code detail : String)
  /-- The evaluator is not available. -/
  | unavailable (detail : String)

/-- What a guard says about its assertion. -/
inductive GuardAnswer where
  | proceed
  | passOver
  | unavailable (detail : String)

namespace Assertion

/-- How the messages about an assertion begin. -/
def title (assertion : Assertion) : String := "Assertion '" ++ assertion.id ++ "'"

/-- What is said if the rule does not hold. -/
def failureMessage (assertion : Assertion) (names : Names) : String :=
  let plain := assertion.title ++ " failed: " ++ assertion.describe
  match assertion.message? with
  | some template => if Text.isBlankText template then plain else Scope.fill template names
  | none => plain

/-- The issue of an outcome, if the evaluator was available. -/
def issueOf (assertion : Assertion) (names : Names) (stage : Stage) (outcome : Outcome) :
    Except String Issue :=
  let linked (severity : Severity) (code message : String) : Issue := {
    severity, code, message, path := none, assertionId := some assertion.id
    details := .object [("rule", .text assertion.describe), ("stage", .text stage.name)] }
  match outcome with
  | .held => .ok (linked .success "assertion_passed" (assertion.title ++ " passed."))
  | .failed =>
    .ok (linked assertion.severity "assertion_failed" (assertion.failureMessage names))
  | .error code detail => .ok (linked .error code detail)
  | .unavailable detail => .error detail

/-- The outcome of an operator rule. -/
def operatorOutcome (assertion : Assertion) (rule : OperatorRule) (names : Names)
    (payload : Value) : Outcome :=
  match rule.holds names payload with
  | .ok true => .held
  | .ok false => .failed
  | .error fault =>
    .error "assertion_error" (assertion.title ++ " could not be evaluated: " ++ fault.message)

/-- Why an expression may not be evaluated at all. -/
def limitFault? (assertion : Assertion) (expression : String) (names : Names) (limits : Limits) :
    Option String :=
  if expression.length > limits.maxExpressionLength then
    some (assertion.title ++ " expression exceeds the maximum length of " ++
      toString limits.maxExpressionLength ++ " characters.")
  else if names.size > limits.maxContextBytes then
    some (assertion.title ++ " not evaluated: context size " ++ toString names.size ++
      " bytes exceeds the limit of " ++ toString limits.maxContextBytes ++ " bytes.")
  else none

/-- The outcome of an expression with the given verdict. -/
def outcomeOf (assertion : Assertion) (verdict : Except VerdictFault Bool) : Outcome :=
  match verdict with
  | .ok true => .held
  | .ok false => .failed
  | .error (.unavailable detail) => .unavailable detail
  | .error (.unknownIdentifier name) =>
    .error "assertion_error" (assertion.title ++ " references unknown identifier '" ++ name ++ "'.")
  | .error (.timeout milliseconds) =>
    .error "assertion_limit_exceeded"
      (assertion.title ++ " " ++ (VerdictFault.timeout milliseconds).message ++ ".")
  | .error fault =>
    .error "assertion_error" (assertion.title ++ " could not be evaluated: " ++ fault.message)

end Assertion

section Pass

variable {m : Type → Type} [Monad m]

/-- What the guard of an assertion says. -/
def guardAnswer (ask : String → Names → m (Except VerdictFault Bool)) (names : Names)
    (assertion : Assertion) : m GuardAnswer :=
  match assertion.guard? with
  | none => pure .proceed
  | some guard => do
    match ← ask guard names with
    | .ok true => pure .proceed
    | .error (.unavailable detail) => pure (.unavailable detail)
    | _ => pure .passOver

/-- The outcome of the rule of an assertion. -/
def mainOutcome (ask : String → Names → m (Except VerdictFault Bool)) (limits : Limits)
    (names : Names) (payload : Value) (assertion : Assertion) : m Outcome :=
  match assertion.rule with
  | .operator rule => pure (assertion.operatorOutcome rule names payload)
  | .expression expression =>
    match assertion.limitFault? expression names limits with
    | some detail => pure (.error "assertion_limit_exceeded" detail)
    | none => do return assertion.outcomeOf (← ask expression names)

/-- Checks assertions of one stage from first to last. -/
def checkEach (ask : String → Names → m (Except VerdictFault Bool)) (limits : Limits)
    (names : Names) (payload : Value) (stage : Stage) : List Assertion → m Report
  | [] => pure .empty
  | assertion :: rest => do
    match ← guardAnswer ask names assertion with
    | .unavailable detail => pure (.unavailable stage detail)
    | .passOver => checkEach ask limits names payload stage rest
    | .proceed =>
      let outcome ← mainOutcome ask limits names payload assertion
      match assertion.issueOf names stage outcome with
      | .error detail => pure (.unavailable stage detail)
      | .ok issue =>
        let report ← checkEach ask limits names payload stage rest
        pure { report with issues := issue :: report.issues }

/-- Checks the assertions of the input's stage; others are left alone. -/
def checkWith (ask : String → Names → m (Except VerdictFault Bool)) (limits : Limits)
    (bareKeys : Bool) (assertions : List Assertion) (input : StageInput) : m Report :=
  checkEach ask limits (input.names bareKeys) input.payload input.stage
    (assertions.filter fun assertion => assertion.stage = input.stage)

end Pass

/-- How assertions are checked. -/
structure Checker where
  evaluator : Evaluator
  limits : Limits
  /-- Whether keys that occur once in a document are visible as they are. -/
  bareKeys : Bool

namespace Checker

def standard : Checker := ⟨Formula.evaluator, .standard, true⟩

/-- The verdict of an expression within the time limit. -/
def verdict (checker : Checker) (expression : String) (names : Names) :
    Except VerdictFault Bool :=
  (checker.evaluator expression names).within checker.limits.timeoutMs

/-- The report of a pass over the assertions of the input's stage. -/
def check (checker : Checker) (assertions : List Assertion) (input : StageInput) : Report :=
  Id.run (checkWith (fun expression names => pure (checker.verdict expression names))
    checker.limits checker.bareKeys assertions input)

end Checker

end Vetting.Rule
