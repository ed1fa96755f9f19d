import Vetting.Workflow.Run

/-!
Contract: what happens to a run, as a log tells it.

Owns:
- the kinds of events and their JSON form;
- logs of events by run, in which the events of a run are numbered from zero.

Does not own: when an event is logged.
-/

namespace Vetting

open Json (Value Shape)

/-- What has happened to a run. -/
inductive EventKind where
  | runStarted (engineVersion : String) (stepCount : Nat)
  | runResumed (fromOrder : Int)
  | duplicateDeliveryIgnored (current : RunStatus)
  | stepStarted (key : String) (order : Int) (attempt : Nat)
  | stepRecovered (key : String) (order : Int) (attempt : Nat)
  | stepFinished (key : String) (order : Int) (status : StepStatus)
  | stepPending (key : String) (order : Int) (executionId : String)
  | callbackApplied (stepRunId : Uuid) (status : StepStatus)
  | callbackIgnored (stepRunId : Uuid) (reason : String)
  | cancelRequested
  | runFinalized (status : RunStatus) (error : Option String)
deriving DecidableEq, Inhabited

namespace EventKind

/-- The name of a kind of event in documents. -/
def name : EventKind → String
  | .runStarted _ _ => "RunStarted"
  | .runResumed _ => "RunResumed"
  | .duplicateDeliveryIgnored _ => "DuplicateDeliveryIgnored"
  | .stepStarted _ _ _ => "StepStarted"
  | .stepRecovered _ _ _ => "StepRecovered"
  | .stepFinished _ _ _ => "StepFinished"
  | .stepPending _ _ _ => "StepPending"
  | .callbackApplied _ _ => "CallbackApplied"
  | .callbackIgnored _ _ => "CallbackIgnored"
  | .cancelRequested => "CancelRequested"
  | .runFinalized _ _ => "RunFinalized"

/-- The name of a kind of event in lower case. -/
def typeName (kind : EventKind) : String := kind.name.toLower

private def variant (name : String) (fields : List Shape.Field) : Shape.Variant :=
  Shape.withFields name ("struct variant RunEventKind::" ++ name) fields

private def stepFields (last : Shape.Field) : List Shape.Field := [
  Shape.required "step_key" Shape.text,
  Shape.required "step_order" Shape.int32,
  last]

def shape : Shape := Shape.union [
  variant "RunStarted" [
    Shape.required "engine_version" Shape.text,
    Shape.required "step_count" Shape.size],
  variant "RunResumed" [Shape.required "from_order" Shape.int32],
  variant "DuplicateDeliveryIgnored" [Shape.required "current_status" RunStatus.shape],
  variant "StepStarted" (stepFields (Shape.required "attempt" Shape.nat32)),
  variant "StepRecovered" (stepFields (Shape.required "attempt" Shape.nat32)),
  variant "StepFinished" (stepFields (Shape.required "status" StepStatus.shape)),
  variant "StepPending" (stepFields (Shape.required "execution_id" Shape.text)),
  variant "CallbackApplied" [
    Shape.required "step_run_id" Uuid.shape,
    Shape.required "status" StepStatus.shape],
  variant "CallbackIgnored" [
    Shape.required "step_run_id" Uuid.shape,
    Shape.required "reason" Shape.text],
  Shape.plain "CancelRequested",
  variant "RunFinalized" [
    Shape.required "status" RunStatus.shape,
    Shape.nullable "error" Shape.text]]

private def heldEntries : EventKind → List (String × Value)
  | .runStarted version count => [("engine_version", .text version), ("step_count", .natural count)]
  | .runResumed order => [("from_order", .integer order)]
  | .duplicateDeliveryIgnored current => [("current_status", current.toValue)]
  | .stepStarted key order attempt | .stepRecovered key order attempt =>
    [("attempt", .natural attempt), ("step_key", .text key), ("step_order", .integer order)]
  | .stepFinished key order status =>
    [("status", status.toValue), ("step_key", .text key), ("step_order", .integer order)]
  | .stepPending key order executionId =>
    [("execution_id", .text executionId), ("step_key", .text key), ("step_order", .integer order)]
  | .callbackApplied id status => [("status", status.toValue), ("step_run_id", id.toValue)]
  | .callbackIgnored id reason => [("reason", .text reason), ("step_run_id", id.toValue)]
  | .cancelRequested => []
  | .runFinalized status error =>
    [("error", .optionalText error), ("status", status.toValue)]

def toValue (kind : EventKind) : Value :=
  match kind with
  | .cancelRequested => .text kind.name
  | other => .object [(kind.name, .object other.heldEntries)]

private def ofEntry? (name : String) (held : Value) : Option EventKind := do
  let text? (key : String) := held.field? key Value.asText?
  let order? (key : String) := held.field? key Value.asInt32?
  let attempt? := held.field? "attempt" Value.asNat32?
  let stepRunId? := held.field? "step_run_id" Uuid.ofValue?
  match name with
  | "RunStarted" =>
    return .runStarted (← text? "engine_version")
      (← held.field? "step_count" Value.asNat64?)
  | "RunResumed" => return .runResumed (← order? "from_order")
  | "DuplicateDeliveryIgnored" =>
    return .duplicateDeliveryIgnored (← held.field? "current_status" RunStatus.ofValue?)
  | "StepStarted" =>
    return .stepStarted (← text? "step_key") (← order? "step_order") (← attempt?)
  | "StepRecovered" =>
    return .stepRecovered (← text? "step_key") (← order? "step_order") (← attempt?)
  | "StepFinished" =>
    return .stepFinished (← text? "step_key") (← order? "step_order")
      (← held.field? "status" StepStatus.ofValue?)
  | "StepPending" =>
    return .stepPending (← text? "step_key") (← order? "step_order") (← text? "execution_id")
  | "CallbackApplied" =>
    return .callbackApplied (← stepRunId?) (← held.field? "status" StepStatus.ofValue?)
  | "CallbackIgnored" => return .callbackIgnored (← stepRunId?) (← text? "reason")
  | "RunFinalized" =>
    return .runFinalized (← held.field? "status" RunStatus.ofValue?)
      (← held.optionalField? "error" Value.asText?)
  | _ => none

def ofValue? : Value → Option EventKind
  | .text "CancelRequested" => some .cancelRequested
  | .object [(name, held)] => ofEntry? name held
  | _ => none

instance : Json.Documented EventKind := ⟨shape, ofValue?, toValue⟩

end EventKind

/-- An event of a run. -/
structure Event where
  number : Nat
  runId : Uuid
  kind : EventKind
  time : Timestamp
deriving DecidableEq, Inhabited

namespace Event

def shape : Shape := Shape.record "struct RunEvent" [
  Shape.required "seq" Shape.nat64,
  Shape.required "run_id" Uuid.shape,
  Shape.required "kind" EventKind.shape,
  Shape.required "ts" Timestamp.shape]

def toValue (event : Event) : Value := .object [
  ("kind", event.kind.toValue),
  ("run_id", event.runId.toValue),
  ("seq", .natural event.number),
  ("ts", event.time.toValue)]

def ofValue? (value : Value) : Option Event := do
  return {
    number := ← value.field? "seq" Value.asNat64?
    runId := ← value.field? "run_id" Uuid.ofValue?
    kind := ← value.field? "kind" EventKind.ofValue?
    time := ← value.field? "ts" Timestamp.ofValue? }

instance : Json.Documented Event := ⟨shape, ofValue?, toValue⟩

end Event

/-- The events of all runs, in the order in which they happened. -/
abbrev EventLog : Type := List Event

namespace EventLog

/-- The events of a run. -/
def ofRun (log : EventLog) (runId : Uuid) : List Event :=
  log.filter fun event => event.runId = runId

/-- The log with one more event, and that event. -/
def append (log : EventLog) (runId : Uuid) (kind : EventKind) (time : Timestamp) :
    EventLog × Event :=
  let event : Event := ⟨(log.ofRun runId).length, runId, kind, time⟩
  (log ++ [event], event)

end EventLog

end Vetting
