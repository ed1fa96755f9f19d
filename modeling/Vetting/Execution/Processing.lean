import Vetting.Execution.Lifecycle
import Vetting.Execution.Recording
import Vetting.Digest.Canonical
import Vetting.Rule.Report

/-!
Contract: carrying out a step that has begun.

Owns:
- what the engine is equipped with;
- the three ways of processing: at once, by a job, and as an action;
- completing a step with the report of its job;
- containing faults of a step in that step.

Does not own: the order of the steps of a run.

Faults of configuration and of execution make the step fail; any other fault is
handed on.
-/

namespace Vetting.Execution

open Json (Value)
open Scope (Signals StageInput)
open Rule (Checker Report Ruleset)

/-- What the engine is equipped with. -/
structure Equipment where
  checker : Checker
  validators : ValidatorRegistry
  actions : ActionRegistry
  backendName : String

/-- A step that has begun, with all it may look at. -/
structure StepContext where
  run : Run
  step : Step
  stepRun : StepRun
  submission : Submission
  signals : Signals

/-- The signals that steps of a lower order have left. -/
def collectSignals (runId : Uuid) (before : Int) : Job Signals := do
  let stepRuns ← Job.store (.stepRuns runId)
  return Dictionary.ofEntries ((stepRuns.filter fun stepRun =>
    stepRun.stepOrder < before && !stepRun.output.signals.isEmpty).map fun stepRun =>
      (stepRun.stepKey, stepRun.output.signals))

/-- Makes a step fail with an issue. -/
def failWithIssue (stepRun : StepRun) (issue : Issue) (output : StepOutput) : Job StepResult := do
  let _ ← record stepRun.runId stepRun.id [issue] .append
  let counts ← countFindings stepRun.id
  let output := { output with severityCounts := counts, message? := some issue.message }
  return .ofStepRun (← endStep stepRun .failed output (some issue.message))

/-- The validator and the ruleset of a step. -/
def validatorOf (step : Step) : Except EngineFault (Validator × Ruleset) :=
  match step.kind with
  | .validator validator ruleset => .ok (validator, ruleset)
  | .action _ _ =>
    .error (.internal ("step '" ++ step.key ++ "' is an action, not a validator step"))

/-- The action of a step, and its parameters. -/
def actionOf (step : Step) : Except EngineFault (String × Value) :=
  match step.kind with
  | .action type params => .ok (type, params)
  | .validator _ _ =>
    .error (.internal ("step '" ++ step.key ++ "' is a validator step, not an action"))

/-- A status that says whether a step has passed. -/
def verdictStatus (passed : Bool) : StepStatus := if passed then .passed else .failed

/-! ### At once -/

/-- Lets an inline validator look at the submission and checks the input assertions. -/
def processInline (equipment : Equipment) (context : StepContext) : Job StepResult := do
  let (validator, ruleset) ← ExceptT.mk (pure (validatorOf context.step))
  match ← ExceptT.mk (pure (equipment.validators.resolve validator)) with
  | .external _ =>
    throw (.configuration ("validator type '" ++ validator.type ++ "' is not an inline validator"))
  | .inline =>
    let outcome ← Job.validate validator context.submission
    let report := equipment.checker.check ruleset.assertions
      ⟨.input, context.submission.payload, validator.catalog, context.signals⟩
    let recorded ← record context.run.id context.stepRun.id (outcome.issues ++ report.issues)
      .replace
    let passed := outcome.passed && report.stats.errorFailures == 0 && !report.halted
    let output := { StepOutput.empty with
      inputAssertions := report.stats
      severityCounts := recorded.severityCounts
      signals := outcome.signals
      inputHalted := report.halted
      configHash? := some (Digest.ofValue validator.config) }
    return .ofStepRun (← endStep context.stepRun (verdictStatus passed) output none)

/-! ### By a job -/

/-- The external validator of a step. -/
def resolveExternal (equipment : Equipment) (validator : Validator) :
    Except EngineFault ExternalValidator := do
  match ← equipment.validators.resolve validator with
  | .external external => return external
  | .inline =>
    .error (.configuration
      ("validator type '" ++ validator.type ++ "' is not an external validator"))

/-- The issue that a message of a job becomes. -/
def messageIssue (message : EnvelopeMessage) : Issue :=
  { Issue.plain message.severity "envelope_message" message.text with path := message.location }

/-- What is to be said about how a job ended, apart from its messages. -/
def statusIssue? (envelope : Envelope) : Option Issue :=
  match envelope.status with
  | .success =>
    if envelope.hasErrors then
      some (.warning "success_with_error_messages"
        "Validator reported success but emitted error messages.")
    else none
  | .failedRuntime =>
    some (.error "validator_runtime_failure"
      "Validator failed with a runtime error before completing.")
  | .cancelled => some (.error "validator_cancelled" "Validator execution was cancelled.")
  | .failedValidation => none

/-- Whether a step passes, given the report of its job and that of its output assertions. -/
def passesWith (base : StepOutput) (envelope : Envelope) (report : Report) : Bool :=
  envelope.status == .success && report.stats.failures == 0 &&
    base.inputAssertions.errorFailures == 0 && !base.inputHalted && !report.halted

/-- Completes a step with the report of its job. -/
def completeWith (equipment : Equipment) (run : Run) (step : Step) (stepRun : StepRun)
    (base : StepOutput) (envelope : Envelope) (external : ExternalValidator) (signals : Signals) :
    Job StepResult := do
  let (validator, ruleset) ← ExceptT.mk (pure (validatorOf step))
  let report := equipment.checker.check ruleset.assertions
    ⟨.output, envelope.outputs, validator.catalog, signals⟩
  let issues :=
    envelope.messages.map messageIssue ++ (statusIssue? envelope).toList ++ report.issues
  let _ ← record run.id stepRun.id issues .append
  let counts ← countFindings stepRun.id
  let output := { base with
    outputAssertions := report.stats
    severityCounts := counts
    signals := external.outputSignals envelope
    envelopeStatus? := some envelope.status }
  let status := verdictStatus (passesWith base envelope report)
  return .ofStepRun (← endStep stepRun status output none)

/-- What a step leaves behind before its job is handed over. -/
def interimOutput (equipment : Equipment) (validator : Validator) (report : Report)
    (counts : SeverityCounts) (key : String) : StepOutput :=
  { StepOutput.empty with
    inputAssertions := report.stats
    severityCounts := counts
    inputHalted := report.halted
    configHash? := some (Digest.ofValue validator.config)
    job? := some {
      backend := equipment.backendName, executionId := "", inputUri := "", outputUri := ""
      idempotencyKey := key, durationSeconds := none, errorMessage := none } }

/-- The output with what the backend has answered. -/
def withResponse (output : StepOutput) (response : JobResponse) : StepOutput :=
  { output with job? := output.job?.map fun job => { job with
      executionId := response.executionId
      inputUri := response.inputUri
      outputUri := response.outputUri
      durationSeconds := response.durationSeconds
      errorMessage := response.errorMessage } }

/-- The request for the job of a step. -/
def jobRequest (context : StepContext) (validator : Validator) (external : ExternalValidator)
    (key : String) : JobRequest where
  runId := context.run.id
  stepRunId := context.stepRun.id
  stepKey := context.step.key
  attempt := context.stepRun.attempt
  validatorType := validator.type
  config := external.jobConfig validator
  fileType := context.submission.fileType
  input := context.submission.content
  idempotencyKey := key

/-- Checks the input assertions and hands the job over.  A job that has ended completes the step;
one that is accepted leaves it pending. -/
def processExternal (equipment : Equipment) (context : StepContext) : Job StepResult := do
  let (validator, ruleset) ← ExceptT.mk (pure (validatorOf context.step))
  let external ← ExceptT.mk (pure (resolveExternal equipment validator))
  if !(← Job.backendAvailable) then
    throw (.configuration ("execution backend '" ++ equipment.backendName ++ "' is not available"))
  let report := equipment.checker.check ruleset.assertions
    ⟨.input, context.submission.payload, validator.catalog, context.signals⟩
  let recorded ← record context.run.id context.stepRun.id report.issues .replace
  let key := Digest.attemptKey context.stepRun.id context.stepRun.attempt
  let interim := interimOutput equipment validator report recorded.severityCounts key
  let stepRun ← storeInterim context.stepRun interim
  let response ← Job.launch (jobRequest context validator external key)
  let interim := withResponse interim response
  if !response.isComplete then
    let stepRun ← storeInterim stepRun interim
    Job.log context.run.id
      (.stepPending context.step.key context.step.order response.executionId)
    return .ofStepRun stepRun
  match response.envelope? with
  | some envelope =>
    completeWith equipment context.run context.step stepRun interim envelope external
      context.signals
  | none =>
    let detail := response.errorMessage.getD "backend completed without an output envelope"
    let stepRun ← storeInterim stepRun interim
    failWithIssue stepRun
      { Issue.error "execution_error" detail with
        details := .object [("backend", .text equipment.backendName)] }
      stepRun.output

/-- Completes the step of a callback. -/
def completeStep (equipment : Equipment) (stepRunId : Uuid) (envelope : Envelope) :
    Job StepResult := do
  let stepRun ← Job.store (.stepRun stepRunId)
  if stepRun.status.isTerminal then return .ofStepRun stepRun
  let run ← Job.store (.run stepRun.runId)
  match run.stepByKey? stepRun.stepKey with
  | none =>
    throw (.internal ("step '" ++ stepRun.stepKey ++ "' not found in run " ++ run.id.text))
  | some step =>
    let (validator, _) ← ExceptT.mk (pure (validatorOf step))
    let external ← ExceptT.mk (pure (resolveExternal equipment validator))
    let signals ← collectSignals run.id step.order
    completeWith equipment run step stepRun stepRun.output envelope external signals

/-! ### As an action -/

/-- The issue that an action leaves, if it leaves one. -/
def actionIssue? (type : String) (outcome : ActionOutcome) : Option Issue :=
  match outcome.message, outcome.passed with
  | some message, true => some (.info "action_message" message)
  | some message, false => some (.error "action_failed" message)
  | none, false => some (.error "action_failed" ("Action '" ++ type ++ "' failed."))
  | none, true => none

/-- Runs an action. -/
def processAction (equipment : Equipment) (context : StepContext) : Job StepResult := do
  let (type, params) ← ExceptT.mk (pure (actionOf context.step))
  ExceptT.mk (pure (equipment.actions.resolve type))
  let outcome ← Job.act type
    ⟨context.run.id, context.step.key, params, context.submission, context.signals⟩
  let recorded ← record context.run.id context.stepRun.id (actionIssue? type outcome).toList
    .replace
  let output := { StepOutput.empty with
    severityCounts := recorded.severityCounts
    signals := outcome.signals
    message? := outcome.message }
  return .ofStepRun (← endStep context.stepRun (verdictStatus outcome.passed) output none)

/-! ### All together -/

/-- A way of processing. -/
inductive Processor where
  | inline
  | external
  | action
deriving DecidableEq, Inhabited, Repr

namespace Processor

def name : Processor → String
  | .inline => "simple"
  | .external => "advanced"
  | .action => "action"

def process : Processor → Equipment → StepContext → Job StepResult
  | .inline => processInline
  | .external => processExternal
  | .action => processAction

/-- The way of processing a step. -/
def ofStep (equipment : Equipment) (step : Step) : Except EngineFault Processor :=
  match step.kind with
  | .action _ _ => .ok .action
  | .validator validator _ => do
    match ← equipment.validators.resolve validator with
    | .inline => return .inline
    | .external _ => return .external

end Processor

/-- Makes the current step fail, unless it has ended already. -/
def failCurrent (stepRunId : Uuid) (code detail : String) : Job StepResult := do
  let current ← Job.store (.stepRun stepRunId)
  if current.status.isTerminal then return .ofStepRun current
  failWithIssue current (.error code detail) current.output

/-- Turns faults of configuration and of execution into a failed step. -/
def contain (stepRunId : Uuid) (job : Job StepResult) : Job StepResult :=
  tryCatch job fun
    | .configuration detail => failCurrent stepRunId "configuration_error" detail
    | .execution detail => failCurrent stepRunId "execution_error" detail
    | fault => throw fault

/-- Processes a step in its own way. -/
def dispatch (equipment : Equipment) (context : StepContext) : Job StepResult :=
  contain context.stepRun.id do
    let processor ← ExceptT.mk (pure (Processor.ofStep equipment context.step))
    processor.process equipment context

/-- Completes the step of a callback; faults of the step stay in it. -/
def completeContained (equipment : Equipment) (stepRunId : Uuid) (envelope : Envelope) :
    Job StepResult :=
  contain stepRunId (completeStep equipment stepRunId envelope)

end Vetting.Execution
