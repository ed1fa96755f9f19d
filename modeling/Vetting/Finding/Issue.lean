import Vetting.Finding.Severity
import Vetting.Uuid
import Vetting.Timestamp

/-!
Contract: what is observed about a submission.

Owns:
- issues, which validators and assertions report;
- findings, which are issues recorded for a step of a run;
- counts of the assertions among issues.

Does not own: where findings are stored.

An issue with an assertion id stands for the outcome of that assertion: success
if its severity is success, and a failure otherwise.
-/

namespace Vetting

open Json (Value Shape)

/-- An observation. -/
structure Issue where
  severity : Severity
  code : String
  message : String
  /-- The place in the document that it is about. -/
  path : Option String
  assertionId : Option String
  details : Value
deriving Inhabited

namespace Issue

/-- An issue without a place, an assertion and details. -/
def plain (severity : Severity) (code message : String) : Issue :=
  ⟨severity, code, message, none, none, .null⟩

def error (code message : String) : Issue := plain .error code message

def warning (code message : String) : Issue := plain .warning code message

def info (code message : String) : Issue := plain .info code message

/-- The issue stands for an assertion that did not hold. -/
def isFailedAssertion (issue : Issue) : Bool :=
  issue.assertionId.isSome && issue.severity != .success

def shape : Shape := Shape.record "struct Issue" [
  Shape.required "severity" Severity.shape,
  Shape.required "code" Shape.text,
  Shape.required "message" Shape.text,
  Shape.defaulted "path" (Shape.optional Shape.text) .null,
  Shape.defaulted "assertion_id" (Shape.optional Shape.text) .null,
  Shape.defaulted "meta" Shape.any .null]

def toValue (issue : Issue) : Value := .object [
  ("assertion_id", .optionalText issue.assertionId),
  ("code", .text issue.code),
  ("message", .text issue.message),
  ("meta", issue.details),
  ("path", .optionalText issue.path),
  ("severity", issue.severity.toValue)]

def ofValue? (value : Value) : Option Issue := do
  return {
    severity := ← value.field? "severity" Severity.ofValue?
    code := ← value.field? "code" Value.asText?
    message := ← value.field? "message" Value.asText?
    path := ← value.optionalField? "path" Value.asText?
    assertionId := ← value.optionalField? "assertion_id" Value.asText?
    details := ← value.fieldOr? "meta" some .null }

instance : Json.Documented Issue := ⟨shape, ofValue?, toValue⟩

end Issue

/-- An issue recorded for a step of a run. -/
structure Finding where
  id : Uuid
  runId : Uuid
  stepRunId : Uuid
  issue : Issue
  createdAt : Timestamp
deriving Inhabited

namespace Finding

def severity (finding : Finding) : Severity := finding.issue.severity

def shape : Shape := Shape.record "struct Finding" [
  Shape.required "id" Uuid.shape,
  Shape.required "run_id" Uuid.shape,
  Shape.required "step_run_id" Uuid.shape,
  Shape.nullable "assertion_id" Shape.text,
  Shape.required "severity" Severity.shape,
  Shape.required "code" Shape.text,
  Shape.required "message" Shape.text,
  Shape.nullable "path" Shape.text,
  Shape.required "meta" Shape.any,
  Shape.required "created_at" Timestamp.shape]

def toValue (finding : Finding) : Value := .object [
  ("assertion_id", .optionalText finding.issue.assertionId),
  ("code", .text finding.issue.code),
  ("created_at", finding.createdAt.toValue),
  ("id", finding.id.toValue),
  ("message", .text finding.issue.message),
  ("meta", finding.issue.details),
  ("path", .optionalText finding.issue.path),
  ("run_id", finding.runId.toValue),
  ("severity", finding.issue.severity.toValue),
  ("step_run_id", finding.stepRunId.toValue)]

def ofValue? (value : Value) : Option Finding := do
  return {
    id := ← value.field? "id" Uuid.ofValue?
    runId := ← value.field? "run_id" Uuid.ofValue?
    stepRunId := ← value.field? "step_run_id" Uuid.ofValue?
    issue := {
      severity := ← value.field? "severity" Severity.ofValue?
      code := ← value.field? "code" Value.asText?
      message := ← value.field? "message" Value.asText?
      path := ← value.optionalField? "path" Value.asText?
      assertionId := ← value.optionalField? "assertion_id" Value.asText?
      details := ← value.field? "meta" some }
    createdAt := ← value.field? "created_at" Timestamp.ofValue? }

instance : Json.Documented Finding := ⟨shape, ofValue?, toValue⟩

end Finding

/-- Counts of the assertions among issues. -/
structure AssertionStats where
  total : Nat
  failures : Nat
  /-- Failures of the severity error. -/
  errorFailures : Nat
deriving DecidableEq, Inhabited

namespace AssertionStats

def zero : AssertionStats := ⟨0, 0, 0⟩

private def isFailedWithError (issue : Issue) : Bool :=
  issue.isFailedAssertion && issue.severity == .error

def ofIssues (issues : List Issue) : AssertionStats where
  total := issues.countP fun issue => issue.assertionId.isSome
  failures := issues.countP Issue.isFailedAssertion
  errorFailures := issues.countP isFailedWithError

/-- Assertions that did not fail. -/
def passed (stats : AssertionStats) : Nat := stats.total - stats.failures

def shape : Shape := Shape.record "struct AssertionStats" [
  Shape.required "total" Shape.nat32,
  Shape.required "failures" Shape.nat32,
  Shape.required "error_failures" Shape.nat32]

def toValue (stats : AssertionStats) : Value := .object [
  ("error_failures", .natural stats.errorFailures),
  ("failures", .natural stats.failures),
  ("total", .natural stats.total)]

def ofValue? (value : Value) : Option AssertionStats := do
  return {
    total := ← value.field? "total" Value.asNat32?
    failures := ← value.field? "failures" Value.asNat32?
    errorFailures := ← value.field? "error_failures" Value.asNat32? }

instance : Json.Documented AssertionStats := ⟨shape, ofValue?, toValue⟩

end AssertionStats

end Vetting
