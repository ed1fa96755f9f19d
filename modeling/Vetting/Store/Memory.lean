import Vetting.Store.Request
import Vetting.Table

/-!
Contract: a store of runs in memory.

Owns:
- tables of submissions, runs, step runs and findings, and receipts of callbacks;
- how each request is answered and what it changes;
- identifiers for new step runs.

Does not own: the programs that make requests.

A request that fails changes nothing.  While writes fail, a run cannot be closed,
a step run not be updated and findings not be stored; other requests still work.
-/

namespace Vetting

/-- The state of a store. -/
structure Store where
  submissions : Table Uuid Submission
  runs : Table Uuid Run
  stepRuns : Table Uuid StepRun
  /-- The step run of each run and step key. -/
  stepIndex : Table (Uuid × String) Uuid
  findings : Table Uuid (List Finding)
  /-- Keys of the callbacks that have a receipt. -/
  receipts : List String
  failingWrites : Bool
deriving Inhabited

namespace Store

def empty : Store := ⟨[], [], [], [], [], [], false⟩

/-! ### Setting up -/

def addSubmission (store : Store) (submission : Submission) : Store :=
  { store with submissions := store.submissions.set submission.id submission }

def putRun (store : Store) (run : Run) : Store :=
  { store with runs := store.runs.set run.id run }

/-- Puts a step run in the place of any other one of its id or of its run and step. -/
def putStepRun (store : Store) (stepRun : StepRun) : Store :=
  { store with
    stepIndex := store.stepIndex.set (stepRun.runId, stepRun.stepKey) stepRun.id
    stepRuns := store.stepRuns.set stepRun.id stepRun }

/-- The runs over a submission. -/
def runsOf (store : Store) (submissionId : Uuid) : List Uuid :=
  (store.runs.values.filter fun run => run.submissionId = submissionId).map Run.id

/-! ### Runs -/

private def changeRun (store : Store) (id : Uuid) (change : Run → Option Run) :
    Except EngineFault Bool × Store :=
  match store.runs.get? id with
  | none => (.error (.runNotFound id), store)
  | some run => match change run with
    | none => (.ok false, store)
    | some changed => (.ok true, { store with runs := store.runs.set id changed })

def startRun (store : Store) (id : Uuid) (now : Timestamp) : Except EngineFault Bool × Store :=
  store.changeRun id fun run =>
    if run.status = .pending then some { run with status := .running, startedAt := some now }
    else none

/-- The fault of a store whose writes fail. -/
def unavailable : EngineFault := .storage "storage unavailable"

def closeRun (store : Store) (id : Uuid) (status : RunStatus) (error : Option String)
    (now : Timestamp) : Except EngineFault Bool × Store :=
  if store.failingWrites then (.error unavailable, store)
  else store.changeRun id fun run =>
    if run.status.isTerminal then none
    else some { run with status, error, endedAt := some now }

private def done (result : Except EngineFault Bool × Store) : Except EngineFault Unit × Store :=
  (result.1.map fun _ => (), result.2)

def saveSummary (store : Store) (id : Uuid) (summary : RunSummary) :
    Except EngineFault Unit × Store :=
  done (store.changeRun id fun run => some { run with summary? := some summary })

def flagCancel (store : Store) (id : Uuid) : Except EngineFault Unit × Store :=
  done (store.changeRun id fun run => some { run with cancelRequested := true })

def run (store : Store) (id : Uuid) : Except EngineFault Run :=
  match store.runs.get? id with
  | some run => .ok run
  | none => .error (.runNotFound id)

/-! ### Step runs -/

/-- The number of the first identifier that a store gives to a step run. -/
def firstNumber : Nat := 0x40008000000000000001

/-- An identifier that no step run has. -/
def freshId (store : Store) : Uuid :=
  ⟨store.stepRuns.foldl (fun least entry => max least (entry.1.number + 1)) firstNumber⟩

def stepRun (store : Store) (id : Uuid) : Except EngineFault StepRun :=
  match store.stepRuns.get? id with
  | some stepRun => .ok stepRun
  | none => .error (.stepRunNotFound id)

/-- The step run of a run and a step key. -/
def stepRunOf? (store : Store) (runId : Uuid) (key : String) : Option StepRun :=
  (store.stepIndex.get? (runId, key)).bind fun id => store.stepRuns.get? id

def acquire (store : Store) (runId : Uuid) (step : Step) (now : Timestamp) :
    Acquisition × Store :=
  match store.stepRunOf? runId step.key with
  | some stepRun => (.existing stepRun, store)
  | none =>
    let created := StepRun.begun store.freshId runId step now
    (.created created, store.putStepRun created)

/-- The step run as it begins again; what it has left behind so far stays with it. -/
private def begunAgain (stepRun : StepRun) (now : Timestamp) : StepRun :=
  { stepRun with
    attempt := stepRun.attempt + 1, startedAt := now, endedAt := none, durationMs := none,
    error := none }

def restart (store : Store) (id : Uuid) (attempt : Nat) (now : Timestamp) :
    Except EngineFault (Option StepRun) × Store :=
  match store.stepRuns.get? id with
  | none => (.error (.stepRunNotFound id), store)
  | some stepRun =>
    if stepRun.status = .running ∧ stepRun.attempt = attempt then
      let restarted := begunAgain stepRun now
      (.ok (some restarted),
        { store with
          stepRuns := store.stepRuns.set id restarted
          findings := store.findings.remove id })
    else (.ok none, store)

/-- The step runs of a run in ascending order. -/
def stepRunsOf (store : Store) (runId : Uuid) : List StepRun :=
  (store.stepRuns.values.filter fun stepRun => stepRun.runId = runId).mergeSort
    fun first second => first.stepOrder ≤ second.stepOrder

def updateStepRun (store : Store) (stepRun : StepRun) : Except EngineFault Unit × Store :=
  if store.failingWrites then (.error unavailable, store)
  else match store.stepRuns.get? stepRun.id with
    | none => (.error (.stepRunNotFound stepRun.id), store)
    | some _ => (.ok (), { store with stepRuns := store.stepRuns.set stepRun.id stepRun })

/-! ### Findings and receipts -/

def findingsOf (store : Store) (stepRunId : Uuid) : List Finding :=
  (store.findings.get? stepRunId).getD []

def replaceFindings (store : Store) (stepRunId : Uuid) (findings : List Finding) :
    Except EngineFault Unit × Store :=
  if store.failingWrites then (.error unavailable, store)
  else (.ok (), { store with findings := store.findings.set stepRunId findings })

def appendFindings (store : Store) (stepRunId : Uuid) (findings : List Finding) :
    Except EngineFault Unit × Store :=
  store.replaceFindings stepRunId (store.findingsOf stepRunId ++ findings)

/-- The findings of a run, step by step in ascending order. -/
def findingsOfRun (store : Store) (runId : Uuid) : List Finding :=
  (store.stepRunsOf runId).flatMap fun stepRun => store.findingsOf stepRun.id

def recordCallback (store : Store) (key : String) : Bool × Store :=
  if store.receipts.contains key then (false, store)
  else (true, { store with receipts := key :: store.receipts })

def releaseCallback (store : Store) (key : String) : Store :=
  { store with receipts := store.receipts.filter fun receipt => receipt != key }

/-! ### Requests -/

/-- The answer to a request, and the store after it. -/
def answer (store : Store) : (request : StoreRequest) → request.Answer × Store
  | .submission id =>
    match store.submissions.get? id with
    | some submission => (.ok submission, store)
    | none => (.error (.submissionNotFound id), store)
  | .run id => (store.run id, store)
  | .startRun id now => store.startRun id now
  | .closeRun id status error now => store.closeRun id status error now
  | .saveSummary id summary => store.saveSummary id summary
  | .flagCancel id => store.flagCancel id
  | .cancelFlag id => ((store.run id).map Run.cancelRequested, store)
  | .acquire runId step now =>
    let (acquisition, after) := store.acquire runId step now
    (.ok acquisition, after)
  | .restart id attempt now => store.restart id attempt now
  | .stepRun id => (store.stepRun id, store)
  | .stepRuns runId => (.ok (store.stepRunsOf runId), store)
  | .updateStepRun stepRun => store.updateStepRun stepRun
  | .replaceFindings id findings => store.replaceFindings id findings
  | .appendFindings id findings => store.appendFindings id findings
  | .findings id => (.ok (store.findingsOf id), store)
  | .runFindings runId => (.ok (store.findingsOfRun runId), store)
  | .recordCallback key _ _ =>
    let (isNew, after) := store.recordCallback key
    (.ok isNew, after)
  | .releaseCallback key => (.ok (), store.releaseCallback key)

end Store

end Vetting
