import Vetting.Execution.Program

/-!
Contract: findings of steps and the summary of a run.

Owns:
- recording issues as findings of a step, in place of earlier ones or after them;
- counts of the findings of a step;
- the summary of a run, and storing it.

Does not own: which issues there are.
-/

namespace Vetting.Execution

/-- What happens to the earlier findings of a step. -/
inductive RecordMode where
  | replace
  | append
deriving DecidableEq, Inhabited, Repr

/-- What has been recorded at one time. -/
structure Recorded where
  findings : List Finding
  severityCounts : SeverityCounts
  assertions : AssertionStats
deriving Inhabited

/-- Issues as findings of a step. -/
def findingsOf (runId stepRunId : Uuid) (stamp : Stamp) (issues : List Issue) : List Finding :=
  issues.mapIdx fun index issue => ⟨stamp.identifier index, runId, stepRunId, issue, stamp.time⟩

/-- Records issues as findings of a step. -/
def record (runId stepRunId : Uuid) (issues : List Issue) (mode : RecordMode) : Job Recorded := do
  let findings := findingsOf runId stepRunId (← Job.stamp) issues
  match mode with
  | .replace => Job.store (.replaceFindings stepRunId findings)
  | .append => Job.store (.appendFindings stepRunId findings)
  return ⟨findings, .of (findings.map Finding.severity), .ofIssues issues⟩

/-- Counts the stored findings of a step. -/
def countFindings (stepRunId : Uuid) : Job SeverityCounts := do
  return .of ((← Job.store (.findings stepRunId)).map Finding.severity)

/-- What a summary says about a step, given the step runs and findings of the run. -/
def stepSummary (step : Step) (stepRuns : List StepRun) (findings : List Finding) : StepSummary :=
  let stepRun? := stepRuns.reverse.find? fun stepRun => stepRun.stepKey == step.key
  let own : List Finding := match stepRun? with
    | some stepRun => findings.filter fun finding => finding.stepRunId = stepRun.id
    | none => []
  { stepKey := step.key
    stepOrder := step.order
    name := step.displayName
    status := stepRun?.map StepRun.status
    attempt := (stepRun?.map StepRun.attempt).getD 0
    durationMs := stepRun?.bind StepRun.durationMs
    findings := .of (own.map Finding.severity)
    assertionTotal := (stepRun?.map fun stepRun => stepRun.output.assertionTotal).getD 0
    assertionFailures := (stepRun?.map fun stepRun => stepRun.output.assertionFailures).getD 0
    error := stepRun?.bind StepRun.error }

/-- The summary of a run, given its step runs and findings. -/
def summaryOf (run : Run) (stepRuns : List StepRun) (findings : List Finding) (now : Timestamp) :
    RunSummary :=
  let steps := run.orderedSteps.map fun step => stepSummary step stepRuns findings
  let severity := (steps.map StepSummary.findings).foldl SeverityCounts.plus .zero
  let total := (steps.map StepSummary.assertionTotal).foldl (· + ·) 0
  let failures := (steps.map StepSummary.assertionFailures).foldl (· + ·) 0
  { status := run.status
    error := run.error
    totalFindings := severity.total - severity.success
    severity
    assertionTotal := total
    assertionFailures := failures
    assertionPasses := total - failures
    steps
    generatedAt := now }

/-- Builds the summary of a run from what is stored. -/
def buildSummary (runId : Uuid) : Job RunSummary := do
  let run ← Job.store (.run runId)
  let stepRuns ← Job.store (.stepRuns runId)
  let findings ← Job.store (.runFindings runId)
  return summaryOf run stepRuns findings (← Job.now)

/-- Builds the summary of a run and stores it. -/
def storeSummary (runId : Uuid) : Job RunSummary := do
  let summary ← buildSummary runId
  Job.store (.saveSummary runId summary)
  return summary

end Vetting.Execution
