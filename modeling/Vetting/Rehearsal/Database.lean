import Vetting.Database.Access
import Vetting.Database.Settings
import Vetting.Rehearsal.Record

/-!
Contract: rehearsing work on a database that is not there.

Owns:
- records of requests whose every connection fails, with the number of connections;
- records of rows: some columns, and the value of the row after changes.

Does not own: the work on the database.
-/

namespace Vetting.Rehearsal

open Json (Value)
open Json.Documented (toValue)
open Database

namespace Record

def ofDatabaseFault (fault : DatabaseFault) : Value := ofFailure fault.name fault.message

/-- A fault, and what it means to the engine. -/
def ofDatabaseFaults (fault : DatabaseFault) : Value := .object [
  ("engine", ofEngineFault fault.toEngineFault), ("persistence", ofDatabaseFault fault)]

def ofDatabaseSettings : Except DatabaseFault DatabaseSettings → Value
  | .ok settings => settings.toValue
  | .error fault => ofDatabaseFault fault

end Record

/-! ### Connections -/

/-- Connections that fail, each with the next fault, and the last one again and again. -/
def failingConnection (faults : List DatabaseFault) : StateM Nat DatabaseFault := fun count =>
  ((faults[count]?.or faults.getLast?).getD (.unknown ""), count + 1)

/-- The result of work that asks for connections, and how many it has asked for. -/
def connectionRecord (faults : List DatabaseFault)
    (work : StateM Nat DatabaseFault → StateM Nat Value) : Value :=
  let (result, connections) := (work (failingConnection faults)).run 0
  .object [("connections", .natural connections), ("result", result)]

/-- Asks for something of the store. -/
def requestRecord (request : StoreRequest) (connect : StateM Nat DatabaseFault) :
    StateM Nat Value := do
  return Record.ofEngineFault (← faultOfRequest connect request)

/-- Adds an event to the log. -/
def eventRecord (kind : EventKind) (view : Event → Value) (connect : StateM Nat DatabaseFault) :
    StateM Nat Value := do
  return view (← unstoredEvent connect .zero kind ⟨0, 0⟩)

/-! ### Rows -/

/-- The value of a row, or why there is none. -/
private def back [Json.Documented α] : Except DatabaseFault α → Value
  | .ok value => toValue value
  | .error fault => Record.ofDatabaseFault fault

/-- A column after changes. -/
private def changed [Json.Documented α] (changes : Value) (name : String) (before : α) : α :=
  changes.optionalOr name before

def runRowRecord (run : Run) (changes : Value) : Value :=
  let row := RunRow.ofRun run
  let after := { row with
    status := changed changes "status" row.status
    steps := changed changes "steps" row.steps
    summary? := (changes.get? "summary").or row.summary? }
  .object [
    ("back", back after.toRun),
    ("columns", .object [
      ("cancel_requested", .boolean row.cancelRequested), ("error", .optionalText row.error),
      ("status", .text row.status), ("steps", row.steps), ("summary", .ofOption id row.summary?)])]

def stepRunRowRecord (stepRun : StepRun) (changes : Value) : Value :=
  match StepRunRow.ofStepRun stepRun with
  | .error fault => Record.ofDatabaseFault fault
  | .ok row =>
    let after := { row with
      status := changed changes "status" row.status
      attempt := ((changes.get? "attempt").bind Value.asInteger?).getD row.attempt
      output := changed changes "output" row.output }
    .object [
      ("back", back after.toStepRun),
      ("columns", .object [
        ("attempt", .integer row.attempt), ("duration_ms", .ofOption Value.integer row.durationMs),
        ("output", row.output), ("status", .text row.status)])]

def submissionRowRecord (submission : Submission) : Value :=
  let row := SubmissionRow.ofSubmission submission
  .object [
    ("back", toValue row.toSubmission),
    ("columns", .object [("bytes", .natural row.content.size), ("file_type", .text row.fileType)])]

def findingRowRecord (finding : Finding) (changes : Value) : Value :=
  let row := FindingRow.ofFinding finding
  let after := { row with severity := changed changes "severity" row.severity }
  .object [
    ("back", back after.toFinding),
    ("columns", .object [
      ("assertion_id", .optionalText row.assertionId), ("meta", row.details),
      ("path", .optionalText row.path), ("severity", .text row.severity)])]

end Vetting.Rehearsal
