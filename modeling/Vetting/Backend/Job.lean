import Vetting.Workflow.Envelope
import Vetting.Workflow.Fault

/-!
Contract: jobs that a backend carries out for a step.

Owns:
- requests for a job and what a backend answers;
- why a backend fails, and what that means to the engine.

Does not own: particular backends.
-/

namespace Vetting

open Json (Value Shape)

/-- Why a backend fails. -/
inductive BackendFault where
  | unavailable (detail : String)
  | timeout (seconds : Nat)
  | runtime (detail : String)
  | artifact (detail : String)
  | submission (detail : String)
deriving DecidableEq, Inhabited

namespace BackendFault

/-- The name of the cause. -/
def name : BackendFault → String
  | .unavailable _ => "Unavailable"
  | .timeout _ => "Timeout"
  | .runtime _ => "Runtime"
  | .artifact _ => "Artifact"
  | .submission _ => "Submission"

def message : BackendFault → String
  | .unavailable detail => "backend unavailable: " ++ detail
  | .timeout seconds => "execution timed out after " ++ toString seconds ++ " s"
  | .runtime detail => "runtime failure: " ++ detail
  | .artifact detail => "artifact storage: " ++ detail
  | .submission detail => "job submission failed: " ++ detail

/-- What the fault means to the engine. -/
def toEngineFault (fault : BackendFault) : EngineFault :=
  match fault with
  | .unavailable _ => .configuration fault.message
  | _ => .execution fault.message

end BackendFault

/-- A request for a job. -/
structure JobRequest where
  runId : Uuid
  stepRunId : Uuid
  stepKey : String
  attempt : Nat
  validatorType : String
  config : Value
  fileType : String
  /-- The submitted bytes; they are no part of the document of a request. -/
  input : ByteArray
  idempotencyKey : String
deriving Inhabited

namespace JobRequest

def shape : Shape := Shape.record "struct ExecutionRequest" [
  Shape.required "run_id" Uuid.shape,
  Shape.required "step_run_id" Uuid.shape,
  Shape.required "step_key" Shape.text,
  Shape.required "attempt" Shape.nat32,
  Shape.required "validator_type" Shape.text,
  Shape.required "config" Shape.any,
  Shape.required "file_type" Shape.text,
  Shape.required "idempotency_key" Shape.text]

def toValue (request : JobRequest) : Value := .object [
  ("attempt", .natural request.attempt),
  ("config", request.config),
  ("file_type", .text request.fileType),
  ("idempotency_key", .text request.idempotencyKey),
  ("run_id", request.runId.toValue),
  ("step_key", .text request.stepKey),
  ("step_run_id", request.stepRunId.toValue),
  ("validator_type", .text request.validatorType)]

/-- The request of a document, without submitted bytes. -/
def ofValue? (value : Value) : Option JobRequest := do
  return {
    runId := ← value.field? "run_id" Uuid.ofValue?
    stepRunId := ← value.field? "step_run_id" Uuid.ofValue?
    stepKey := ← value.field? "step_key" Value.asText?
    attempt := ← value.field? "attempt" Value.asNat32?
    validatorType := ← value.field? "validator_type" Value.asText?
    config := ← value.field? "config" some
    fileType := ← value.field? "file_type" Value.asText?
    input := .empty
    idempotencyKey := ← value.field? "idempotency_key" Value.asText? }

instance : Json.Documented JobRequest := ⟨shape, ofValue?, toValue⟩

end JobRequest

/-- What a backend answers to a request. -/
structure JobResponse where
  executionId : String
  inputUri : String
  outputUri : String
  durationSeconds : Option Float
  errorMessage : Option String
  envelope? : Option Envelope
  /-- Whether the job has ended; otherwise it is accepted and reports later. -/
  isComplete : Bool
deriving Inhabited

end Vetting
