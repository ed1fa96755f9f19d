import Vetting.Rehearsal.Scene
import Vetting.Digest.Canonical

/-!
Contract: what of a rehearsal is the same every time.

Owns:
- records of step runs, findings, results, summaries and runs without moments,
  durations and identifiers that come from chance;
- placeholders for the identifiers that the store gives, and for the tokens that
  follow from them.

Does not own: what is rehearsed.
-/

namespace Vetting.Rehearsal

open Json (Value)
open Json.Documented (toValue)
open Execution (CallbackOutcome Recorded)

namespace Record

/-- A failure with the name of its cause. -/
def ofFailure (name message : String) : Value :=
  .object [("error", .text name), ("message", .text message)]

def ofEngineFault (fault : EngineFault) : Value := .object [
  ("class", .text fault.faultClass.name), ("error", .text fault.name),
  ("message", .text fault.message)]

def ofBackendFault (fault : BackendFault) : Value := ofFailure fault.name fault.message

/-- A duration is there or not; how long it was is chance. -/
def ofDuration (duration : Option Int) : Value := Value.optionalText (duration.map fun _ => "set")

def ofStepRun (stepRun : StepRun) : Value := .ofEntries [
  ("key", .text stepRun.stepKey),
  ("order", .integer stepRun.stepOrder),
  ("status", stepRun.status.toValue),
  ("attempt", .natural stepRun.attempt),
  ("ended", .boolean stepRun.endedAt.isSome),
  ("duration_ms", ofDuration stepRun.durationMs),
  ("output", stepRun.output.toValue),
  ("error", .optionalText stepRun.error)]

def ofFinding (finding : Finding) : Value := .ofEntries [
  ("assertion_id", .optionalText finding.issue.assertionId),
  ("severity", finding.issue.severity.toValue),
  ("code", .text finding.issue.code),
  ("message", .text finding.issue.message),
  ("path", .optionalText finding.issue.path),
  ("meta", finding.issue.details),
  ("failure", .boolean finding.issue.isFailedAssertion)]

def ofResult (result : StepResult) : Value := .ofEntries [
  ("run_id", result.runId.toValue),
  ("key", .text result.stepKey),
  ("order", .integer result.stepOrder),
  ("status", result.status.toValue),
  ("passed", .ofOption Value.boolean result.passed?),
  ("pending", .boolean result.isPending),
  ("output", result.output.toValue),
  ("error", .optionalText result.error)]

def ofCallback (outcome : CallbackOutcome) : Value := .ofEntries [
  ("result", ofResult outcome.result),
  ("resume_from", .ofOption Value.integer outcome.resumeFrom),
  ("duplicate", .boolean outcome.duplicate),
  ("run_status", outcome.runStatus.toValue)]

def ofRecorded (recorded : Recorded) : Value := .ofEntries [
  ("findings", .array (recorded.findings.map ofFinding)),
  ("counts", recorded.severityCounts.toValue),
  ("assertions", recorded.assertions.toValue)]

mutual

/-- A document without the time of its making, and with durations that are there or not. -/
def timeless : Value → Value
  | .array items => .array (timelessItems items)
  | .object entries => .object (timelessEntries entries)
  | other => other

def timelessItems : List Value → List Value
  | [] => []
  | item :: rest => timeless item :: timelessItems rest

def timelessEntries : List (String × Value) → List (String × Value)
  | [] => []
  | (key, value) :: rest =>
    if key = "generated_at" then timelessEntries rest
    else if key = "duration_ms" then
      (key, if value.isNull then .null else .text "set") :: timelessEntries rest
    else (key, timeless value) :: timelessEntries rest

end

def ofSummary (summary : RunSummary) : Value := timeless summary.toValue

private def before (first second : StepRun) : Bool :=
  first.stepOrder < second.stepOrder ||
    (first.stepOrder == second.stepOrder && first.stepKey ≤ second.stepKey)

/-- A run with its step runs by order and key, and their findings. -/
def ofRun (store : Store) (run : Run) : Value := .ofEntries [
  ("status", run.status.toValue),
  ("error", .optionalText run.error),
  ("cancel_requested", .boolean run.cancelRequested),
  ("started", .boolean run.startedAt.isSome),
  ("ended", .boolean run.endedAt.isSome),
  ("summary", .ofOption ofSummary run.summary?),
  ("steps", .array (((store.stepRunsOf run.id).mergeSort before).map fun stepRun =>
    .ofEntries [
      ("step_run", ofStepRun stepRun),
      ("findings", .array ((store.findingsOf stepRun.id).map ofFinding))]))]

end Record

/-! ### Placeholders -/

namespace Scene

/-- What stands for the identifiers that the store has given and the tokens of their attempts. -/
def placeholders (scene : Scene) : List (String × String) :=
  scene.identified.flatMap fun (id, key) =>
    let attempt := ((scene.world.store.stepRun id).toOption.map StepRun.attempt).getD 0
    (id.text, "<sr:" ++ key ++ ">") :: (List.range (attempt + 2)).map fun number =>
      (Digest.attemptKey id number, "<key:" ++ key ++ "#" ++ toString number ++ ">")

end Scene

mutual

/-- A document with parts of its texts replaced. -/
def replaced (changes : List (String × String)) : Value → Value
  | .text text => .text (changes.foldl (fun text change => text.replace change.1 change.2) text)
  | .array items => .array (replacedItems changes items)
  | .object entries => .object (replacedEntries changes entries)
  | other => other

def replacedItems (changes : List (String × String)) : List Value → List Value
  | [] => []
  | item :: rest => replaced changes item :: replacedItems changes rest

def replacedEntries (changes : List (String × String)) :
    List (String × Value) → List (String × Value)
  | [] => []
  | (key, value) :: rest => (key, replaced changes value) :: replacedEntries changes rest

end

end Vetting.Rehearsal
