import Vetting.Command.Failure
import Vetting.Command.Usage
import Vetting.Configuration.EnvironmentFile
import Vetting.Execution.Engine
import Vetting.Files.Tree

/-!
Contract: from a command line to what is printed.

Owns:
- what has to be in order before a command is carried out;
- carrying out each command with the engine;
- what is printed, and the code at the end.

Does not own: where words and settings come from, and where texts go.

The words are looked at before the settings, and the settings before the database.
Programs ask for stores and plug-ins as those of the engine do; files are read
through a function.
-/

namespace Vetting.Command

open Json (Value)
open Files (FileFault)
open Execution (Equipment Program Job)

/-- Why no command is carried out. -/
inductive Refusal where
  | usage (fault : UsageFault)
  | failure (failure : Failure)
deriving Inhabited

namespace Refusal

/-- What is printed because it was asked for. -/
def answer? : Refusal → Option String
  | .usage fault => fault.answer?
  | .failure _ => none

/-- What is complained about, if anything. -/
def message? : Refusal → Option String
  | .usage fault => fault.message?
  | .failure failed => some failed.text

/-- The code with which the program ends. -/
def exitCode : Refusal → Nat
  | .usage fault => fault.exitCode
  | .failure failed => (ExitCode.ofCause failed.cause).number

end Refusal

/-- A command that can be carried out. -/
structure Commission where
  order : Order
  settings : Settings
  database : DatabaseSettings
deriving Inhabited

/-- The command of a command line in an environment, with the text of a file of more settings. -/
def Commission.read (words : List String) (environment : Environment) (file? : Option String) :
    Except Refusal Commission := do
  let refuse (cause : Cause) : Refusal := .failure (.plain cause)
  let order ← (Order.ofWords words).mapError .usage
  let environment := match file? with
    | some text => EnvironmentFile.add text environment
    | none => environment
  let settings ← (Settings.read environment).mapError fun fault => refuse (.configuration fault)
  let database ← settings.databaseOrFault.mapError fun fault => refuse (.assembly fault)
  return { order, settings, database }

/-- What a command that was carried out prints, and its code. -/
structure Report where
  value : Value
  code : ExitCode
deriving Inhabited

/-- The text that is printed. -/
def Report.text (report : Report) : String := report.value.pretty ++ "\n"

/-- A program of a command. -/
abbrev Session (α : Type) : Type := ExceptT Failure Program α

/-- A job of the engine, as a part of a command. -/
def Session.ofJob (job : Job α) : Session α :=
  ExceptT.mk (do return (← job.run).mapError fun fault => .plain (.engine fault))

def execute (equipment : Equipment) (runId : Uuid) (resumeFrom : Option Int) : Session Report := do
  let outcome ← Session.ofJob (Execution.execute equipment runId resumeFrom)
  return ⟨outcome.toValue, .ofStatus outcome.status⟩

def cancel (runId : Uuid) : Session Report := do
  return ⟨(← Session.ofJob (Execution.cancel runId)).toValue, .success⟩

def summary (runId : Uuid) : Session Report := do
  return ⟨(← Session.ofJob (Execution.summary runId)).toValue, .success⟩

/-- The envelope in a file. -/
def readEnvelope (readFile : String → Except FileFault ByteArray) (path : String) :
    Except Failure Envelope := do
  let bytes ← (readFile path).mapError fun fault =>
    ⟨["reading " ++ path], .other fault.message⟩
  (Json.decodeBytes Envelope bytes).mapError fun fault =>
    .plain (.configuration (.invalid "--envelope" path fault.message))

/-- Takes in the callback of a job, and lets the run go on if it can. -/
def complete (equipment : Equipment) (stepRunId : Uuid) (envelope : Envelope)
    (key? : Option String) : Session Report := do
  let outcome ← Session.ofJob (Execution.completeCallback equipment stepRunId envelope key?)
  let resumed? ← match outcome.resumeFrom with
    | none => pure none
    | some order =>
      some <$> Session.ofJob (Execution.execute equipment outcome.result.runId (some order))
  let status := (resumed?.map RunOutcome.status).getD outcome.runStatus
  return ⟨.ofEntries [
    ("step_run_id", outcome.result.stepRunId.toValue),
    ("step_status", outcome.result.status.toValue),
    ("duplicate", .boolean outcome.duplicate),
    ("resume_from", .ofOption Value.integer outcome.resumeFrom),
    ("run_status", status.toValue),
    ("resumed", .ofOption RunOutcome.toValue resumed?)], .ofStatus status⟩

/-- Carries out an order. -/
def perform (equipment : Equipment) (readFile : String → Except FileFault ByteArray) :
    Order → Session Report
  | .execute runId resumeFrom => execute equipment runId resumeFrom
  | .complete stepRunId path key? => do
    complete equipment stepRunId (← liftExcept (readEnvelope readFile path)) key?
  | .cancel runId => cancel runId
  | .summary runId => summary runId
where
  liftExcept (result : Except Failure Envelope) : Session Envelope := ExceptT.mk (pure result)

end Vetting.Command
