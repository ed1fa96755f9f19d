import Vetting.Execution.Processing
import Vetting.Width

/-!
Contract: the operations on a run.

Owns:
- executing a run, from its beginning or from a later step on;
- taking in the callback of a job;
- cancelling a run, and its summary;
- closing a run when its steps are done, have failed or are given up.

Does not own: what happens inside a step (`Vetting.Execution.dispatch`).

A run is begun once: a second delivery of the same order does nothing.  An
unexpected fault closes the run with a message that does not tell details; the
details stay in the step.
-/

namespace Vetting.Execution

/-- The version that runs are begun with. -/
def engineVersion : String := "V1.0"

/-- The error of a run that an unexpected fault has closed. -/
def genericFailure : String := "Validation run failed due to an internal error."

/-- The error of a run that has been cancelled. -/
def cancelMessage : String := "Run was canceled."

/-- How far the steps of a run have come. -/
inductive Progress where
  | completed
  | failed (error : Option String)
  | canceled
  /-- A step waits for its job. -/
  | pending
  /-- Another invocation is at work on a step. -/
  | yielded
deriving Inhabited

/-- A fault, with the step run that was at work when it came up. -/
structure Interruption where
  fault : EngineFault
  current : Option StepRun
deriving Inhabited

/-- A job that belongs to a step run. -/
def during (current : Option StepRun) (job : Job α) : ExceptT Interruption Program α :=
  ExceptT.adapt (fun fault => ⟨fault, current⟩) job

/-- How far a run has come with a step that is not to be carried out now; none if the next step may
follow. -/
def progressAt (stepRun : StepRun) : Option Progress :=
  match stepRun.status with
  | .failed => some (.failed stepRun.error)
  | .passed | .skipped => none
  | .running => some (if stepRun.awaitsJob then .pending else .yielded)

/-- How far a run has come with a step that has been carried out; none if the next step may
follow. -/
def progressAfter (result : StepResult) : Option Progress :=
  match result.passed? with
  | none => some .pending
  | some false => some (.failed result.error)
  | some true => none

/-- Begins a step and carries it out if that is to be done now. -/
def takeStep (equipment : Equipment) (run : Run) (submission : Submission) (step : Step) :
    ExceptT Interruption Program (Option Progress) := do
  let handle ← during none (beginStep run.id step)
  if handle.execute then
    during (some handle.stepRun) do
      let signals ← collectSignals run.id step.order
      return progressAfter
        (← dispatch equipment ⟨run, step, handle.stepRun, submission, signals⟩)
  else return progressAt handle.stepRun

/-- Takes steps one after the other, as long as nobody has asked to cancel the run. -/
def takeSteps (equipment : Equipment) (run : Run) (submission : Submission) :
    List Step → ExceptT Interruption Program Progress
  | [] => return .completed
  | step :: rest => do
    if ← during none (Job.store (.cancelFlag run.id)) then return .canceled
    match ← takeStep equipment run submission step with
    | some progress => return progress
    | none => takeSteps equipment run submission rest

/-- Takes the steps of a run whose order is at least the given one. -/
def drive (equipment : Equipment) (run : Run) (start : Int) :
    ExceptT Interruption Program Progress := do
  let submission ← during none (Job.store (.submission run.submissionId))
  takeSteps equipment run submission (run.orderedSteps.filter fun step => start ≤ step.order)

/-! ### Closing a run -/

def currentOutcome (runId : Uuid) : Job RunOutcome := do
  return .ofRun (← Job.store (.run runId))

/-- Closes a run, unless it is closed already. -/
def closeRun (runId : Uuid) (status : RunStatus) (error : Option String) : Job RunOutcome := do
  if ← Job.store (.closeRun runId status error (← Job.now)) then
    Job.log runId (.runFinalized status error)
    let _ ← storeSummary runId
  currentOutcome runId

/-- Makes a step fail with an unexpected fault, unless it has ended already. -/
def failStep (stepRun : StepRun) (fault : EngineFault) : Job Unit := do
  let latest ← Job.store (.stepRun stepRun.id)
  if !latest.status.isTerminal then
    let _ ← failWithIssue latest (.error "unexpected_error" fault.message) latest.output

/-- Closes a run after an unexpected fault.  The step at work fails with the details, if that can be
stored. -/
def failRun (runId : Uuid) (interruption : Interruption) : Job RunOutcome := do
  if let some stepRun := interruption.current then
    tryCatch (failStep stepRun interruption.fault) fun _ => pure ()
  closeRun runId .failed (some genericFailure)

/-! ### Executing a run -/

/-- Begins a run, or goes on with it; gives the outcome if there is nothing to do. -/
def enterRun (runId : Uuid) (resumeFrom : Option Int) : Job (Option RunOutcome) := do
  match resumeFrom with
  | none =>
    let started ← Job.store (.startRun runId (← Job.now))
    let run ← Job.store (.run runId)
    if started then
      Job.log runId (.runStarted engineVersion run.steps.length)
      return none
    else
      Job.log runId (.duplicateDeliveryIgnored run.status)
      return some (.ofRun run)
  | some order =>
    let run ← Job.store (.run runId)
    if run.status = .running then
      Job.log runId (.runResumed order)
      return none
    else return some (.ofRun run)

/-- The least order that a step can have. -/
def leastOrder : Int := Width.leastInt 32

/-- Executes a run, from its first step or from a given order on. -/
def execute (equipment : Equipment) (runId : Uuid) (resumeFrom : Option Int) : Job RunOutcome := do
  match ← enterRun runId resumeFrom with
  | some outcome => return outcome
  | none =>
    let run ← Job.store (.run runId)
    match ← ExceptT.lift (drive equipment run (resumeFrom.getD leastOrder)).run with
    | .ok .completed => closeRun runId .succeeded none
    | .ok (.failed error) => closeRun runId .failed error
    | .ok .canceled => closeRun runId .canceled (some cancelMessage)
    | .ok .pending | .ok .yielded => currentOutcome runId
    | .error interruption => failRun runId interruption

/-! ### Callbacks -/

/-- What has come of a callback. -/
structure CallbackOutcome where
  result : StepResult
  /-- The order from which the run is to go on. -/
  resumeFrom : Option Int
  duplicate : Bool
  runStatus : RunStatus
deriving Inhabited

def ignoreCallback (stepRun : StepRun) (reason : String) (duplicate : Bool) :
    Job CallbackOutcome := do
  Job.log stepRun.runId (.callbackIgnored stepRun.id reason)
  return ⟨.ofStepRun stepRun, none, duplicate, (← Job.store (.run stepRun.runId)).status⟩

/-- Deals with a fault that a callback has brought up. -/
def recoverCallback (stepRun : StepRun) (fault : EngineFault) : Job CallbackOutcome := do
  let run ← Job.store (.run stepRun.runId)
  if run.status.isTerminal then
    failStep stepRun fault
    let _ ← storeSummary stepRun.runId
  else
    let _ ← failRun stepRun.runId ⟨fault, some stepRun⟩
  let latest ← Job.store (.stepRun stepRun.id)
  return ⟨.ofStepRun latest, none, false, (← Job.store (.run stepRun.runId)).status⟩

/-- The order from which a run goes on after a step that has passed. -/
def resumePoint (run : Run) (order : Int) : Int := (run.nextOrder? order).getD (order + 1)

/-- Tells the run of a step that a callback has completed. -/
def followCallback (stepRun : StepRun) (result : StepResult) : Job CallbackOutcome := do
  let runId := stepRun.runId
  Job.log runId (.callbackApplied stepRun.id result.status)
  let run ← Job.store (.run runId)
  let resumeFrom ←
    if run.status.isTerminal then do
      let _ ← storeSummary runId
      pure none
    else if result.passed? = some true then pure (some (resumePoint run result.stepOrder))
    else do
      let _ ← closeRun runId .failed result.error
      pure none
  return ⟨result, resumeFrom, false, (← Job.store (.run runId)).status⟩

/-- Applies a callback to a step, unless the step has ended already. -/
def applyCallback (equipment : Equipment) (stepRun : StepRun) (envelope : Envelope) :
    Job CallbackOutcome := do
  if stepRun.status.isTerminal then
    ignoreCallback stepRun ("step already " ++ stepRun.status.name) false
  else
    match ← ExceptT.lift (completeContained equipment stepRun.id envelope).run with
    | .ok result => followCallback stepRun result
    | .error fault => recoverCallback stepRun fault

/-- Applies a callback that brings a token; if that fails, the same callback may come again. -/
def applyWithReceipt (equipment : Equipment) (stepRun : StepRun) (envelope : Envelope)
    (key : String) : Job CallbackOutcome :=
  tryCatch (applyCallback equipment stepRun envelope) fun fault => do
    tryCatch (Job.store (.releaseCallback key)) fun _ => pure ()
    throw fault

/-- Whether a token does not belong to the current attempt of a step. -/
def isStale (stepRun : StepRun) (key : String) : Bool :=
  match stepRun.output.jobKey? with
  | some expected => expected != key
  | none => false

/-- Takes in the callback of a job. -/
def completeCallback (equipment : Equipment) (stepRunId : Uuid) (envelope : Envelope)
    (key? : Option String) : Job CallbackOutcome := do
  let stepRun ← Job.store (.stepRun stepRunId)
  match key? with
  | none => applyCallback equipment stepRun envelope
  | some key =>
    if isStale stepRun key then ignoreCallback stepRun "stale attempt" false
    else if ← Job.store (.recordCallback key stepRunId (← Job.now)) then
      applyWithReceipt equipment stepRun envelope key
    else ignoreCallback stepRun "duplicate delivery" true

/-! ### Cancelling, and summaries -/

/-- Cancels a run: at once if it has not begun or waits for a job, and otherwise before its next
step. -/
def cancel (runId : Uuid) : Job RunOutcome := do
  let run ← Job.store (.run runId)
  if run.status.isTerminal then return .ofRun run
  Job.store (.flagCancel runId)
  Job.log runId .cancelRequested
  let stepRuns ← Job.store (.stepRuns runId)
  let waits := stepRuns.any fun stepRun => stepRun.status == .running && stepRun.awaitsJob
  if run.status = .pending || waits then closeRun runId .canceled (some cancelMessage)
  else return .ofRun run

/-- The stored summary of a run, or one that is built now. -/
def summary (runId : Uuid) : Job RunSummary := do
  match (← Job.store (.run runId)).summary? with
  | some summary => return summary
  | none => buildSummary runId

end Vetting.Execution
