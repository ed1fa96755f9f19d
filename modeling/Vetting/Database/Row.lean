import Vetting.Database.Fault
import Vetting.Json.Documented
import Vetting.Workflow.Run
import Vetting.Workflow.Submission
import Vetting.Width

/-!
Contract: the rows of a database that stand for runs, step runs, submissions and
findings.

Owns:
- the columns of each kind of row;
- the row of a value, and the value of a row.

Does not own: the statements that store and fetch rows.

Statuses and severities are kept as text, structured values as JSON documents, and
attempts as integers of 32 bits, of which the upper half of the attempts has none.
-/

namespace Vetting.Database

open Json (Value Documented)

/-- The value of a JSON column. -/
private def column (α : Type) [Documented α] (document : Value) : Except DatabaseFault α :=
  (Json.decode α document).mapError DatabaseFault.ofDocument

private theorem column_eq_ok [Documented α] {document : Value} {value : α}
    (denotes : Documented.ofValue? document = some value) : column α document = .ok value := by
  rw [column, Json.decode, Json.Shape.decodeAs, denotes]
  rfl

/-- What a column of text stands for. -/
private def named (kind : String) (read? : String → Option α) (text : String) :
    Except DatabaseFault α :=
  match read? text with
  | some value => .ok value
  | none => .error (.corrupt (kind ++ " '" ++ text ++ "'"))

/-- The row of a run. -/
structure RunRow where
  id : Uuid
  workflowId : Uuid
  submissionId : Uuid
  steps : Value
  status : String
  createdAt : Timestamp
  startedAt : Option Timestamp
  endedAt : Option Timestamp
  error : Option String
  summary? : Option Value
  cancelRequested : Bool
deriving Inhabited

namespace RunRow

def ofRun (run : Run) : RunRow where
  id := run.id
  workflowId := run.workflowId
  submissionId := run.submissionId
  steps := Documented.toValue run.steps
  status := run.status.name
  createdAt := run.createdAt
  startedAt := run.startedAt
  endedAt := run.endedAt
  error := run.error
  summary? := run.summary?.map RunSummary.toValue
  cancelRequested := run.cancelRequested

/-- The run of a row.  The status is looked at before the documents. -/
def toRun (row : RunRow) : Except DatabaseFault Run := do
  let status ← named "run status" RunStatus.named? row.status
  let steps ← column (List Step) row.steps
  let summary? ← row.summary?.mapM (column RunSummary)
  return {
    id := row.id, workflowId := row.workflowId, submissionId := row.submissionId, steps, status
    createdAt := row.createdAt, startedAt := row.startedAt, endedAt := row.endedAt
    error := row.error, summary?, cancelRequested := row.cancelRequested }

/-- A run is got back from its row if the columns of the row denote what they are made of. -/
theorem toRun_ofRun {run : Run} (status : RunStatus.named? run.status.name = some run.status)
    (steps : Documented.ofValue? (Documented.toValue run.steps) = some run.steps)
    (summary : ∀ summary ∈ run.summary?, RunSummary.ofValue? summary.toValue = some summary) :
    (ofRun run).toRun = .ok run := by
  have stepsColumn : column (List Step) (ofRun run).steps = .ok run.steps := column_eq_ok steps
  have statusColumn : named "run status" RunStatus.named? (ofRun run).status = .ok run.status := by
    rw [named, ofRun, status]
  have summaryColumn : (ofRun run).summary?.mapM (column RunSummary) = .ok run.summary? := by
    cases isThere : run.summary? with
    | none =>
      rw [ofRun, isThere]
      rfl
    | some stored =>
      have stored : column RunSummary stored.toValue = .ok stored :=
        column_eq_ok (summary stored isThere)
      simp only [ofRun, isThere, Option.map_some, Option.mapM_some, stored]
      rfl
  rw [toRun, statusColumn, stepsColumn, summaryColumn]
  rfl

end RunRow

/-- The row of a step run. -/
structure StepRunRow where
  id : Uuid
  runId : Uuid
  stepKey : String
  stepOrder : Int
  status : String
  attempt : Int
  startedAt : Timestamp
  endedAt : Option Timestamp
  durationMs : Option Int
  output : Value
  error : Option String
deriving Inhabited

/-- The greatest attempt that a row can hold. -/
def greatestAttempt : Nat := Width.count 31 - 1

private def strangeAttempt (attempt : Int) : DatabaseFault :=
  .corrupt ("attempt " ++ toString attempt)

namespace StepRunRow

/-- The row of a step run, if its attempt fits. -/
def ofStepRun (stepRun : StepRun) : Except DatabaseFault StepRunRow :=
  if stepRun.attempt ≤ greatestAttempt then .ok {
    id := stepRun.id, runId := stepRun.runId, stepKey := stepRun.stepKey
    stepOrder := stepRun.stepOrder, status := stepRun.status.name, attempt := stepRun.attempt
    startedAt := stepRun.startedAt, endedAt := stepRun.endedAt, durationMs := stepRun.durationMs
    output := stepRun.output.toValue, error := stepRun.error }
  else .error (strangeAttempt stepRun.attempt)

/-- The step run of a row.  The status is looked at first, and the document last. -/
def toStepRun (row : StepRunRow) : Except DatabaseFault StepRun := do
  let status ← named "step run status" StepStatus.named? row.status
  if row.attempt < 0 then throw (strangeAttempt row.attempt)
  let output ← column StepOutput row.output
  return {
    id := row.id, runId := row.runId, stepKey := row.stepKey, stepOrder := row.stepOrder, status
    attempt := row.attempt.toNat, startedAt := row.startedAt, endedAt := row.endedAt
    durationMs := row.durationMs, output, error := row.error }

theorem ofStepRun_eq_error {stepRun : StepRun} (tooLate : greatestAttempt < stepRun.attempt) :
    ofStepRun stepRun = .error (.corrupt ("attempt " ++ toString (stepRun.attempt : Int))) :=
  if_neg (Nat.not_le.mpr tooLate)

/-- A step run whose attempt fits has a row, from which it is got back if the columns of the row
denote what they are made of. -/
theorem toStepRun_ofStepRun {stepRun : StepRun}
    (inTime : stepRun.attempt ≤ greatestAttempt)
    (status : StepStatus.named? stepRun.status.name = some stepRun.status)
    (output : StepOutput.ofValue? stepRun.output.toValue = some stepRun.output) :
    ∃ row, ofStepRun stepRun = .ok row ∧ row.toStepRun = .ok stepRun := by
  refine ⟨_, if_pos inTime, ?_⟩
  have statusColumn : named "step run status" StepStatus.named? stepRun.status.name =
      .ok stepRun.status := by
    rw [named, status]
  have outputColumn : column StepOutput stepRun.output.toValue = .ok stepRun.output :=
    column_eq_ok output
  have notNegative : ¬ (stepRun.attempt : Int) < 0 := by omega
  simp only [toStepRun, statusColumn, outputColumn, notNegative, if_false]
  rfl

end StepRunRow

/-- The row of a submission. -/
structure SubmissionRow where
  id : Uuid
  fileType : String
  content : ByteArray
  createdAt : Timestamp
deriving Inhabited

namespace SubmissionRow

def ofSubmission (submission : Submission) : SubmissionRow :=
  ⟨submission.id, submission.fileType, submission.content, submission.createdAt⟩

def toSubmission (row : SubmissionRow) : Submission :=
  ⟨row.id, row.fileType, row.content, row.createdAt⟩

end SubmissionRow

/-- The row of a finding. -/
structure FindingRow where
  id : Uuid
  runId : Uuid
  stepRunId : Uuid
  assertionId : Option String
  severity : String
  code : String
  message : String
  path : Option String
  details : Value
  createdAt : Timestamp
deriving Inhabited

namespace FindingRow

def ofFinding (finding : Finding) : FindingRow where
  id := finding.id
  runId := finding.runId
  stepRunId := finding.stepRunId
  assertionId := finding.issue.assertionId
  severity := finding.severity.name
  code := finding.issue.code
  message := finding.issue.message
  path := finding.issue.path
  details := finding.issue.details
  createdAt := finding.createdAt

/-- The finding of a row; the letters of a severity may be of either case. -/
def toFinding (row : FindingRow) : Except DatabaseFault Finding := do
  let severity ← named "severity" Severity.read? row.severity
  return {
    id := row.id, runId := row.runId, stepRunId := row.stepRunId
    issue := {
      severity, code := row.code, message := row.message, path := row.path
      assertionId := row.assertionId, details := row.details }
    createdAt := row.createdAt }

end FindingRow

end Vetting.Database
