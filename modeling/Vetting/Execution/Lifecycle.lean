import Vetting.Execution.Program

/-!
Contract: how a step run begins and ends.

Owns:
- beginning a step, or finding out that another invocation has to do with it;
- ending a step, and keeping what it has left behind so far;
- the events that tell of it.

Does not own: what a step does in between.

A step that has ended, or whose job is accepted, is not carried out again.  One
that is found running is begun again, unless another invocation is faster.
-/

namespace Vetting.Execution

/-- A step run, and whether it is to be carried out now. -/
structure StepHandle where
  stepRun : StepRun
  execute : Bool
deriving Inhabited

/-- Begins a step of a run. -/
def beginStep (runId : Uuid) (step : Step) : Job StepHandle := do
  let now ← Job.now
  match ← Job.store (.acquire runId step now) with
  | .created stepRun =>
    Job.log runId (.stepStarted step.key step.order stepRun.attempt)
    return ⟨stepRun, true⟩
  | .existing stepRun =>
    if stepRun.status.isTerminal || stepRun.awaitsJob then return ⟨stepRun, false⟩
    else
      match ← Job.store (.restart stepRun.id stepRun.attempt now) with
      | some restarted =>
        Job.log runId (.stepRecovered step.key step.order restarted.attempt)
        return ⟨restarted, true⟩
      | none => return ⟨← Job.store (.stepRun stepRun.id), false⟩

/-- Ends a step at a given moment. -/
def endStepAt (stepRun : StepRun) (status : StepStatus) (output : StepOutput)
    (error : Option String) (now : Timestamp) : Job StepRun := do
  if !status.isTerminal || !stepRun.status.mayBecome status then
    throw (.invalidTransition stepRun.status.name status.name)
  let ended := stepRun.ended status output error now
  Job.store (.updateStepRun ended)
  Job.log ended.runId (.stepFinished ended.stepKey ended.stepOrder status)
  return ended

/-- Ends a step now. -/
def endStep (stepRun : StepRun) (status : StepStatus) (output : StepOutput)
    (error : Option String) : Job StepRun := do
  endStepAt stepRun status output error (← Job.now)

/-- Keeps what a step has left behind so far. -/
def storeInterim (stepRun : StepRun) (output : StepOutput) : Job StepRun := do
  let updated := { stepRun with output }
  Job.store (.updateStepRun updated)
  return updated

end Vetting.Execution
