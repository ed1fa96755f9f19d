import Vetting.Workflow.StepRun

/-!
Contract: runs of a workflow over a submission.

Owns:
- the statuses of a run;
- runs, with their steps in order;
- summaries of a run and its steps, and outcomes;
- their JSON forms.

Does not own: how a run proceeds, and how a summary is computed.
-/

namespace Vetting

open Json (Value Shape)

inductive RunStatus where
  | pending
  | running
  | succeeded
  | failed
  | canceled
deriving DecidableEq, Inhabited, Repr

namespace RunStatus

def all : List RunStatus := [.pending, .running, .succeeded, .failed, .canceled]

def name : RunStatus → String
  | .pending => "PENDING"
  | .running => "RUNNING"
  | .succeeded => "SUCCEEDED"
  | .failed => "FAILED"
  | .canceled => "CANCELED"

def named? (name : String) : Option RunStatus := all.find? fun status => status.name == name

def isTerminal : RunStatus → Bool
  | .pending | .running => false
  | _ => true

def shape : Shape := Shape.choice (all.map fun status => [status.name])

def toValue (status : RunStatus) : Value := .text status.name

def ofValue? : Value → Option RunStatus
  | .text name => named? name
  | _ => none

instance : Json.Documented RunStatus := ⟨shape, ofValue?, toValue⟩

end RunStatus

/-- What a summary says about a step. -/
structure StepSummary where
  stepKey : String
  stepOrder : Int
  name : String
  /-- None if the step has not begun. -/
  status : Option StepStatus
  attempt : Nat
  durationMs : Option Int
  findings : SeverityCounts
  assertionTotal : Nat
  assertionFailures : Nat
  error : Option String
deriving DecidableEq, Inhabited

namespace StepSummary

def shape : Shape := Shape.record "struct StepSummary" [
  Shape.required "step_key" Shape.text,
  Shape.required "step_order" Shape.int32,
  Shape.required "name" Shape.text,
  Shape.nullable "status" StepStatus.shape,
  Shape.required "attempt" Shape.nat32,
  Shape.nullable "duration_ms" Shape.int64,
  Shape.required "findings" SeverityCounts.shape,
  Shape.required "assertion_total" Shape.nat32,
  Shape.required "assertion_failures" Shape.nat32,
  Shape.nullable "error" Shape.text]

def toValue (summary : StepSummary) : Value := .object [
  ("assertion_failures", .natural summary.assertionFailures),
  ("assertion_total", .natural summary.assertionTotal),
  ("attempt", .natural summary.attempt),
  ("duration_ms", .ofOption Value.integer summary.durationMs),
  ("error", .optionalText summary.error),
  ("findings", summary.findings.toValue),
  ("name", .text summary.name),
  ("status", .ofOption StepStatus.toValue summary.status),
  ("step_key", .text summary.stepKey),
  ("step_order", .integer summary.stepOrder)]

def ofValue? (value : Value) : Option StepSummary := do
  return {
    stepKey := ← value.field? "step_key" Value.asText?
    stepOrder := ← value.field? "step_order" Value.asInt32?
    name := ← value.field? "name" Value.asText?
    status := ← value.optionalField? "status" StepStatus.ofValue?
    attempt := ← value.field? "attempt" Value.asNat32?
    durationMs := ← value.optionalField? "duration_ms" Value.asInt64?
    findings := ← value.field? "findings" SeverityCounts.ofValue?
    assertionTotal := ← value.field? "assertion_total" Value.asNat32?
    assertionFailures := ← value.field? "assertion_failures" Value.asNat32?
    error := ← value.optionalField? "error" Value.asText? }

instance : Json.Documented StepSummary := ⟨shape, ofValue?, toValue⟩

end StepSummary

/-- What can be said about a run as a whole. -/
structure RunSummary where
  status : RunStatus
  error : Option String
  totalFindings : Nat
  severity : SeverityCounts
  assertionTotal : Nat
  assertionFailures : Nat
  assertionPasses : Nat
  steps : List StepSummary
  generatedAt : Timestamp
deriving DecidableEq, Inhabited

namespace RunSummary

def shape : Shape := Shape.record "struct RunSummary" [
  Shape.required "status" RunStatus.shape,
  Shape.nullable "error" Shape.text,
  Shape.required "total_findings" Shape.nat32,
  Shape.required "severity" SeverityCounts.shape,
  Shape.required "assertion_total" Shape.nat32,
  Shape.required "assertion_failures" Shape.nat32,
  Shape.required "assertion_passes" Shape.nat32,
  Shape.required "steps" (Shape.listOf StepSummary.shape),
  Shape.required "generated_at" Timestamp.shape]

def toValue (summary : RunSummary) : Value := .object [
  ("assertion_failures", .natural summary.assertionFailures),
  ("assertion_passes", .natural summary.assertionPasses),
  ("assertion_total", .natural summary.assertionTotal),
  ("error", .optionalText summary.error),
  ("generated_at", summary.generatedAt.toValue),
  ("severity", summary.severity.toValue),
  ("status", summary.status.toValue),
  ("steps", .array (summary.steps.map StepSummary.toValue)),
  ("total_findings", .natural summary.totalFindings)]

def ofValue? (value : Value) : Option RunSummary := do
  return {
    status := ← value.field? "status" RunStatus.ofValue?
    error := ← value.optionalField? "error" Value.asText?
    totalFindings := ← value.field? "total_findings" Value.asNat32?
    severity := ← value.field? "severity" SeverityCounts.ofValue?
    assertionTotal := ← value.field? "assertion_total" Value.asNat32?
    assertionFailures := ← value.field? "assertion_failures" Value.asNat32?
    assertionPasses := ← value.field? "assertion_passes" Value.asNat32?
    steps := ← value.field? "steps" (Value.asList? StepSummary.ofValue?)
    generatedAt := ← value.field? "generated_at" Timestamp.ofValue? }

instance : Json.Documented RunSummary := ⟨shape, ofValue?, toValue⟩

end RunSummary

/-- A run of a workflow over a submission. -/
structure Run where
  id : Uuid
  workflowId : Uuid
  submissionId : Uuid
  steps : List Step
  status : RunStatus
  createdAt : Timestamp
  startedAt : Option Timestamp
  endedAt : Option Timestamp
  error : Option String
  summary? : Option RunSummary
  cancelRequested : Bool
deriving Inhabited

namespace Run

/-- Puts steps in ascending order; steps of one order keep their places. -/
def inOrder (steps : List Step) : List Step :=
  steps.mergeSort fun first second => first.order ≤ second.order

/-- A run that has not begun. -/
def fresh (id workflowId submissionId : Uuid) (steps : List Step) (now : Timestamp) : Run := {
  id, workflowId, submissionId, steps := inOrder steps, status := .pending, createdAt := now,
  startedAt := none, endedAt := none, error := none, summary? := none, cancelRequested := false }

def orderedSteps (run : Run) : List Step := inOrder run.steps

/-- The first step with the given key. -/
def stepByKey? (run : Run) (key : String) : Option Step :=
  run.steps.find? fun step => step.key == key

/-- The lowest order of a step above the given one. -/
def nextOrder? (run : Run) (after : Int) : Option Int :=
  ((run.steps.map Step.order).filter fun order => after < order).min?

def shape : Shape := Shape.record "struct Run" [
  Shape.required "id" Uuid.shape,
  Shape.required "workflow_id" Uuid.shape,
  Shape.required "submission_id" Uuid.shape,
  Shape.required "steps" (Shape.listOf Step.shape),
  Shape.required "status" RunStatus.shape,
  Shape.required "created_at" Timestamp.shape,
  Shape.nullable "started_at" Timestamp.shape,
  Shape.nullable "ended_at" Timestamp.shape,
  Shape.nullable "error" Shape.text,
  Shape.nullable "summary" RunSummary.shape,
  Shape.required "cancel_requested" Shape.boolean]

def toValue (run : Run) : Value := .object [
  ("cancel_requested", .boolean run.cancelRequested),
  ("created_at", run.createdAt.toValue),
  ("ended_at", .ofOption Timestamp.toValue run.endedAt),
  ("error", .optionalText run.error),
  ("id", run.id.toValue),
  ("started_at", .ofOption Timestamp.toValue run.startedAt),
  ("status", run.status.toValue),
  ("steps", .array (run.steps.map Step.toValue)),
  ("submission_id", run.submissionId.toValue),
  ("summary", .ofOption RunSummary.toValue run.summary?),
  ("workflow_id", run.workflowId.toValue)]

def ofValue? (value : Value) : Option Run := do
  return {
    id := ← value.field? "id" Uuid.ofValue?
    workflowId := ← value.field? "workflow_id" Uuid.ofValue?
    submissionId := ← value.field? "submission_id" Uuid.ofValue?
    steps := ← value.field? "steps" (Value.asList? Step.ofValue?)
    status := ← value.field? "status" RunStatus.ofValue?
    createdAt := ← value.field? "created_at" Timestamp.ofValue?
    startedAt := ← value.optionalField? "started_at" Timestamp.ofValue?
    endedAt := ← value.optionalField? "ended_at" Timestamp.ofValue?
    error := ← value.optionalField? "error" Value.asText?
    summary? := ← value.optionalField? "summary" RunSummary.ofValue?
    cancelRequested := ← value.field? "cancel_requested" Value.asBoolean? }

instance : Json.Documented Run := ⟨shape, ofValue?, toValue⟩

end Run

/-- How a run stands after an operation. -/
structure RunOutcome where
  runId : Uuid
  status : RunStatus
  error : Option String
deriving DecidableEq, Inhabited

namespace RunOutcome

def ofRun (run : Run) : RunOutcome := ⟨run.id, run.status, run.error⟩

def toValue (outcome : RunOutcome) : Value := .object [
  ("error", .optionalText outcome.error),
  ("run_id", outcome.runId.toValue),
  ("status", outcome.status.toValue)]

end RunOutcome

end Vetting
