import Vetting.Artifact.Store

/-!
Contract: a backend that hands each job to a service elsewhere.

Owns:
- what the service is told about a job, and its JSON form;
- the answer to a job, which is accepted and reports later.

Does not own: how the service is reached (`Vetting.Backend.JobService`).
-/

namespace Vetting

open Json (Value Shape)
open Artifact (ArtifactStore)

/-- What a service is told about a job. -/
structure JobNotice where
  runId : Uuid
  stepRunId : Uuid
  attempt : Nat
  validatorType : String
  config : Value
  inputUri : String
  outputUri : String
  /-- Where the service reports the result. -/
  callbackUrl : String
  idempotencyKey : String
deriving Inhabited

namespace JobNotice

def shape : Shape := Shape.record "struct JobSubmission" [
  Shape.required "run_id" Uuid.shape,
  Shape.required "step_run_id" Uuid.shape,
  Shape.required "attempt" Shape.nat32,
  Shape.required "validator_type" Shape.text,
  Shape.required "config" Shape.any,
  Shape.required "input_uri" Shape.text,
  Shape.required "output_uri" Shape.text,
  Shape.required "callback_url" Shape.text,
  Shape.required "idempotency_key" Shape.text]

def toValue (notice : JobNotice) : Value := .object [
  ("attempt", .natural notice.attempt),
  ("callback_url", .text notice.callbackUrl),
  ("config", notice.config),
  ("idempotency_key", .text notice.idempotencyKey),
  ("input_uri", .text notice.inputUri),
  ("output_uri", .text notice.outputUri),
  ("run_id", notice.runId.toValue),
  ("step_run_id", notice.stepRunId.toValue),
  ("validator_type", .text notice.validatorType)]

def ofValue? (value : Value) : Option JobNotice := do
  return {
    runId := ← value.field? "run_id" Uuid.ofValue?
    stepRunId := ← value.field? "step_run_id" Uuid.ofValue?
    attempt := ← value.field? "attempt" Value.asNat32?
    validatorType := ← value.field? "validator_type" Value.asText?
    config := ← value.field? "config" some
    inputUri := ← value.field? "input_uri" Value.asText?
    outputUri := ← value.field? "output_uri" Value.asText?
    callbackUrl := ← value.field? "callback_url" Value.asText?
    idempotencyKey := ← value.field? "idempotency_key" Value.asText? }

instance : Json.Documented JobNotice := ⟨shape, ofValue?, toValue⟩

/-- What is told about a job whose input is stored. -/
def ofRequest (request : JobRequest) (inputUri outputUri callbackUrl : String) : JobNotice where
  runId := request.runId
  stepRunId := request.stepRunId
  attempt := request.attempt
  validatorType := request.validatorType
  config := request.config
  inputUri := inputUri
  outputUri := outputUri
  callbackUrl := callbackUrl
  idempotencyKey := request.idempotencyKey

end JobNotice

/-- A backend that hands jobs to a service. -/
structure RemoteBackend (m : Type → Type) where
  artifacts : ArtifactStore m
  /-- Tells the service about a job and answers the service's name for it. -/
  submit : JobNotice → m (Except BackendFault String)
  callbackUrl : String

namespace RemoteBackend

variable {m : Type → Type} [Monad m]

def name : String := "remote"

/-- Without an address for results no job can be handed on. -/
def isAvailable (backend : RemoteBackend m) : Bool := backend.callbackUrl != ""

/-- Stores the input of a job and tells the service about the job. -/
def execute (backend : RemoteBackend m) (request : JobRequest) :
    m (Except BackendFault JobResponse) := do
  match ← backend.artifacts.write (Artifact.keyOf request "input") request.input with
  | .error fault => return .error fault
  | .ok inputUri =>
    let outputUri := backend.artifacts.address (Artifact.keyOf request "output.json")
    match ← backend.submit (.ofRequest request inputUri outputUri backend.callbackUrl) with
    | .error fault => return .error fault
    | .ok executionId => return .ok {
        executionId, inputUri, outputUri, durationSeconds := none, errorMessage := none
        envelope? := none, isComplete := false }

end RemoteBackend

end Vetting
