import Vetting.Finding.Issue
import Vetting.Workflow.Envelope
import Vetting.Workflow.Step

/-!
Contract: the record of a step in a run.

Owns:
- the statuses of a step and which one may follow another;
- what a step leaves behind: counts, signals and facts about its job;
- step runs, their results, and their JSON forms.

Does not own: who may change a step run, and when.
-/

namespace Vetting

open Json (Value Shape)

inductive StepStatus where
  | running
  | passed
  | failed
  | skipped
deriving DecidableEq, Inhabited, Repr

namespace StepStatus

def all : List StepStatus := [.running, .passed, .failed, .skipped]

def name : StepStatus → String
  | .running => "RUNNING"
  | .passed => "PASSED"
  | .failed => "FAILED"
  | .skipped => "SKIPPED"

def named? (name : String) : Option StepStatus := all.find? fun status => status.name == name

def isTerminal : StepStatus → Bool
  | .running => false
  | _ => true

/-- Whether a status may follow this one. -/
def mayBecome (status _next : StepStatus) : Bool := !status.isTerminal

def shape : Shape := Shape.choice (all.map fun status => [status.name])

def toValue (status : StepStatus) : Value := .text status.name

def ofValue? : Value → Option StepStatus
  | .text name => named? name
  | _ => none

instance : Json.Documented StepStatus := ⟨shape, ofValue?, toValue⟩

end StepStatus

/-- Facts about the job of a step. -/
structure JobInfo where
  backend : String
  /-- Empty as long as the job is not accepted. -/
  executionId : String
  inputUri : String
  outputUri : String
  /-- The token that a callback of the job has to bring. -/
  idempotencyKey : String
  durationSeconds : Option Float
  errorMessage : Option String
deriving Inhabited

namespace JobInfo

def shape : Shape := Shape.record "struct ExecutionInfo" [
  Shape.required "backend" Shape.text,
  Shape.required "execution_id" Shape.text,
  Shape.required "input_uri" Shape.text,
  Shape.required "output_uri" Shape.text,
  Shape.required "idempotency_key" Shape.text,
  Shape.defaulted "duration_seconds" (Shape.optional Shape.float) .null,
  Shape.defaulted "error_message" (Shape.optional Shape.text) .null]

def toValue (info : JobInfo) : Value := .object (
  ("backend", .text info.backend) ::
  Value.entryIfSome "duration_seconds" Value.float info.durationSeconds ++
  Value.entryIfSome "error_message" Value.text info.errorMessage ++ [
  ("execution_id", .text info.executionId),
  ("idempotency_key", .text info.idempotencyKey),
  ("input_uri", .text info.inputUri),
  ("output_uri", .text info.outputUri)])

def ofValue? (value : Value) : Option JobInfo := do
  return {
    backend := ← value.field? "backend" Value.asText?
    executionId := ← value.field? "execution_id" Value.asText?
    inputUri := ← value.field? "input_uri" Value.asText?
    outputUri := ← value.field? "output_uri" Value.asText?
    idempotencyKey := ← value.field? "idempotency_key" Value.asText?
    durationSeconds := ← value.optionalField? "duration_seconds" Value.asFloat?
    errorMessage := ← value.optionalField? "error_message" Value.asText? }

instance : Json.Documented JobInfo := ⟨shape, ofValue?, toValue⟩

end JobInfo

/-- What a step leaves behind. -/
structure StepOutput where
  inputAssertions : AssertionStats
  outputAssertions : AssertionStats
  severityCounts : SeverityCounts
  /-- Values that later steps may refer to. -/
  signals : Dictionary Value
  /-- The input assertions could not all be evaluated. -/
  inputHalted : Bool
  job? : Option JobInfo
  envelopeStatus? : Option EnvelopeStatus
  configHash? : Option String
  message? : Option String
deriving Inhabited

namespace StepOutput

def empty : StepOutput := {
  inputAssertions := .zero, outputAssertions := .zero, severityCounts := .zero, signals := [],
  inputHalted := false, job? := none, envelopeStatus? := none, configHash? := none,
  message? := none }

def assertionTotal (output : StepOutput) : Nat :=
  output.inputAssertions.total + output.outputAssertions.total

def assertionFailures (output : StepOutput) : Nat :=
  output.inputAssertions.failures + output.outputAssertions.failures

/-- A job is accepted and has not reported yet. -/
def awaitsJob (output : StepOutput) : Bool :=
  output.envelopeStatus?.isNone && output.job?.any fun job => !job.executionId.isEmpty

/-- The token that a callback has to bring, if there is one. -/
def jobKey? (output : StepOutput) : Option String :=
  (output.job?.map JobInfo.idempotencyKey).filter fun key => !key.isEmpty

def shape : Shape := Shape.record "struct StepRunOutput" [
  Shape.defaulted "input_assertions" AssertionStats.shape AssertionStats.zero.toValue,
  Shape.defaulted "output_assertions" AssertionStats.shape AssertionStats.zero.toValue,
  Shape.defaulted "severity_counts" SeverityCounts.shape SeverityCounts.zero.toValue,
  Shape.defaulted "signals" (Shape.dictionaryOf Shape.any) (.object []),
  Shape.defaulted "input_halted" Shape.boolean (.boolean false),
  Shape.defaulted "execution" (Shape.optional JobInfo.shape) .null,
  Shape.defaulted "envelope_status" (Shape.optional EnvelopeStatus.shape) .null,
  Shape.defaulted "config_hash" (Shape.optional Shape.text) .null,
  Shape.defaulted "message" (Shape.optional Shape.text) .null]

def toValue (output : StepOutput) : Value := .object (
  Value.entryIfSome "config_hash" Value.text output.configHash? ++
  Value.entryIfSome "envelope_status" EnvelopeStatus.toValue output.envelopeStatus? ++
  Value.entryIfSome "execution" JobInfo.toValue output.job? ++
  ("input_assertions", output.inputAssertions.toValue) ::
  ("input_halted", .boolean output.inputHalted) ::
  Value.entryIfSome "message" Value.text output.message? ++ [
  ("output_assertions", output.outputAssertions.toValue),
  ("severity_counts", output.severityCounts.toValue),
  ("signals", .object output.signals)])

def ofValue? (value : Value) : Option StepOutput := do
  return {
    inputAssertions := ← value.fieldOr? "input_assertions" AssertionStats.ofValue? .zero
    outputAssertions := ← value.fieldOr? "output_assertions" AssertionStats.ofValue? .zero
    severityCounts := ← value.fieldOr? "severity_counts" SeverityCounts.ofValue? .zero
    signals := ← value.fieldOr? "signals" (Value.asDictionary? some) []
    inputHalted := ← value.fieldOr? "input_halted" Value.asBoolean? false
    job? := ← value.optionalField? "execution" JobInfo.ofValue?
    envelopeStatus? := ← value.optionalField? "envelope_status" EnvelopeStatus.ofValue?
    configHash? := ← value.optionalField? "config_hash" Value.asText?
    message? := ← value.optionalField? "message" Value.asText? }

/-- The output that a value denotes; the empty one if it denotes none. -/
def ofValue (value : Value) : StepOutput :=
  (Shape.decodeAs shape ofValue? value).toOption.getD .empty

instance : Json.Documented StepOutput := ⟨shape, ofValue?, toValue⟩

end StepOutput

/-- The record of a step in a run. -/
structure StepRun where
  id : Uuid
  runId : Uuid
  stepKey : String
  stepOrder : Int
  status : StepStatus
  /-- How often the step has been begun. -/
  attempt : Nat
  startedAt : Timestamp
  endedAt : Option Timestamp
  durationMs : Option Int
  output : StepOutput
  error : Option String
deriving Inhabited

namespace StepRun

/-- The record of a step that begins. -/
def begun (id runId : Uuid) (step : Step) (now : Timestamp) : StepRun := {
  id, runId, stepKey := step.key, stepOrder := step.order, status := .running, attempt := 1,
  startedAt := now, endedAt := none, durationMs := none, output := .empty, error := none }

/-- The record of a step that ends. -/
def ended (stepRun : StepRun) (status : StepStatus) (output : StepOutput)
    (error : Option String) (now : Timestamp) : StepRun :=
  { stepRun with
    status, output, error, endedAt := some now
    durationMs := some (stepRun.startedAt.millisecondsUntil now) }

/-- The job of the step is accepted and has not reported yet. -/
def awaitsJob (stepRun : StepRun) : Bool := stepRun.output.awaitsJob

def shape : Shape := Shape.record "struct StepRun" [
  Shape.required "id" Uuid.shape,
  Shape.required "run_id" Uuid.shape,
  Shape.required "step_key" Shape.text,
  Shape.required "step_order" Shape.int32,
  Shape.required "status" StepStatus.shape,
  Shape.required "attempt" Shape.nat32,
  Shape.required "started_at" Timestamp.shape,
  Shape.nullable "ended_at" Timestamp.shape,
  Shape.nullable "duration_ms" Shape.int64,
  Shape.required "output" StepOutput.shape,
  Shape.nullable "error" Shape.text]

def toValue (stepRun : StepRun) : Value := .object [
  ("attempt", .natural stepRun.attempt),
  ("duration_ms", .ofOption Value.integer stepRun.durationMs),
  ("ended_at", .ofOption Timestamp.toValue stepRun.endedAt),
  ("error", .optionalText stepRun.error),
  ("id", stepRun.id.toValue),
  ("output", stepRun.output.toValue),
  ("run_id", stepRun.runId.toValue),
  ("started_at", stepRun.startedAt.toValue),
  ("status", stepRun.status.toValue),
  ("step_key", .text stepRun.stepKey),
  ("step_order", .integer stepRun.stepOrder)]

def ofValue? (value : Value) : Option StepRun := do
  return {
    id := ← value.field? "id" Uuid.ofValue?
    runId := ← value.field? "run_id" Uuid.ofValue?
    stepKey := ← value.field? "step_key" Value.asText?
    stepOrder := ← value.field? "step_order" Value.asInt32?
    status := ← value.field? "status" StepStatus.ofValue?
    attempt := ← value.field? "attempt" Value.asNat32?
    startedAt := ← value.field? "started_at" Timestamp.ofValue?
    endedAt := ← value.optionalField? "ended_at" Timestamp.ofValue?
    durationMs := ← value.optionalField? "duration_ms" Value.asInt64?
    output := ← value.field? "output" StepOutput.ofValue?
    error := ← value.optionalField? "error" Value.asText? }

instance : Json.Documented StepRun := ⟨shape, ofValue?, toValue⟩

end StepRun

/-- What the processing of a step has come to. -/
structure StepResult where
  runId : Uuid
  stepRunId : Uuid
  stepKey : String
  stepOrder : Int
  status : StepStatus
  /-- Nothing is known as long as the step runs. -/
  passed? : Option Bool
  output : StepOutput
  error : Option String
deriving Inhabited

namespace StepResult

def ofStepRun (stepRun : StepRun) : StepResult where
  runId := stepRun.runId
  stepRunId := stepRun.id
  stepKey := stepRun.stepKey
  stepOrder := stepRun.stepOrder
  status := stepRun.status
  passed? := match stepRun.status with
    | .running => none
    | .passed | .skipped => some true
    | .failed => some false
  output := stepRun.output
  error := stepRun.error

def isPending (result : StepResult) : Bool := result.passed?.isNone

end StepResult

end Vetting
