import Vetting.Workflow.Run
import Vetting.Workflow.Submission
import Vetting.Workflow.Fault

/-!
Contract: what may be asked of a store of runs.

Owns:
- the requests and their kinds; each is carried out as one indivisible step;
- the type of the result of each request.

Does not own: how a store answers (`Vetting.Store`).

Every request may fail.
-/

namespace Vetting

/-- How a step run was come by. -/
inductive Acquisition where
  | created (stepRun : StepRun)
  | existing (stepRun : StepRun)
deriving Inhabited

/-- A request to a store. -/
inductive StoreRequest where
  | submission (id : Uuid)
  | run (id : Uuid)
  /-- Makes a pending run a running one. -/
  | startRun (id : Uuid) (now : Timestamp)
  /-- Gives a run that is not closed its last status. -/
  | closeRun (id : Uuid) (status : RunStatus) (error : Option String) (now : Timestamp)
  | saveSummary (id : Uuid) (summary : RunSummary)
  | flagCancel (id : Uuid)
  | cancelFlag (id : Uuid)
  /-- Finds the step run of a step, or begins one. -/
  | acquire (runId : Uuid) (step : Step) (now : Timestamp)
  /-- Begins a running step run again if its attempt is still the expected one. -/
  | restart (id : Uuid) (attempt : Nat) (now : Timestamp)
  | stepRun (id : Uuid)
  | stepRuns (runId : Uuid)
  | updateStepRun (stepRun : StepRun)
  | replaceFindings (stepRunId : Uuid) (findings : List Finding)
  | appendFindings (stepRunId : Uuid) (findings : List Finding)
  | findings (stepRunId : Uuid)
  | runFindings (runId : Uuid)
  /-- Keeps a receipt of a callback, unless there is one. -/
  | recordCallback (key : String) (stepRunId : Uuid) (now : Timestamp)
  | releaseCallback (key : String)
deriving Inhabited

namespace StoreRequest

/-- Kinds of requests. -/
inductive Kind where
  | submission
  | run
  | startRun
  | closeRun
  | saveSummary
  | flagCancel
  | cancelFlag
  | acquire
  | restart
  | stepRun
  | stepRuns
  | updateStepRun
  | replaceFindings
  | appendFindings
  | findings
  | runFindings
  | recordCallback
  | releaseCallback
deriving DecidableEq, Inhabited, Repr

def kind : StoreRequest → Kind
  | .submission _ => .submission
  | .run _ => .run
  | .startRun _ _ => .startRun
  | .closeRun _ _ _ _ => .closeRun
  | .saveSummary _ _ => .saveSummary
  | .flagCancel _ => .flagCancel
  | .cancelFlag _ => .cancelFlag
  | .acquire _ _ _ => .acquire
  | .restart _ _ _ => .restart
  | .stepRun _ => .stepRun
  | .stepRuns _ => .stepRuns
  | .updateStepRun _ => .updateStepRun
  | .replaceFindings _ _ => .replaceFindings
  | .appendFindings _ _ => .appendFindings
  | .findings _ => .findings
  | .runFindings _ => .runFindings
  | .recordCallback _ _ _ => .recordCallback
  | .releaseCallback _ => .releaseCallback

/-- The type of what a successful request gives. -/
@[reducible] def Result : StoreRequest → Type
  | .submission _ => Submission
  | .run _ => Run
  | .startRun _ _ => Bool
  | .closeRun _ _ _ _ => Bool
  | .saveSummary _ _ => Unit
  | .flagCancel _ => Unit
  | .cancelFlag _ => Bool
  | .acquire _ _ _ => Acquisition
  | .restart _ _ _ => Option StepRun
  | .stepRun _ => StepRun
  | .stepRuns _ => List StepRun
  | .updateStepRun _ => Unit
  | .replaceFindings _ _ => Unit
  | .appendFindings _ _ => Unit
  | .findings _ => List Finding
  | .runFindings _ => List Finding
  | .recordCallback _ _ _ => Bool
  | .releaseCallback _ => Unit

/-- What a store answers to a request. -/
@[reducible] def Answer (request : StoreRequest) : Type := Except EngineFault request.Result

end StoreRequest

end Vetting
