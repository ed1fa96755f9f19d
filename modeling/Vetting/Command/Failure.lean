import Vetting.Backend.Job
import Vetting.Configuration.Settings
import Vetting.Database.Fault
import Vetting.Workflow.Run

/-!
Contract: how a command ends.

Owns:
- why a command fails, and in which contexts;
- the one line that reports a failure;
- exit codes.

Does not own: the commands.
-/

namespace Vetting

/-- Why the parts of the application cannot be put together. -/
inductive AssemblyFault where
  | configuration (fault : ConfigurationFault)
  | database (fault : DatabaseFault)
  | backend (fault : BackendFault)
deriving DecidableEq, Inhabited

namespace AssemblyFault

/-- What is said about the fault, and then about its own cause if it has one. -/
def messages : AssemblyFault → List String
  | .configuration fault => [fault.message]
  | .database fault => ["database: " ++ fault.message, fault.message]
  | .backend fault => ["backend: " ++ fault.message, fault.message]

end AssemblyFault

/-- The settings of the database that commands need. -/
def Settings.databaseOrFault (settings : Settings) : Except AssemblyFault DatabaseSettings :=
  match settings.database? with
  | some database => .ok database
  | none => .error (.configuration (.missing DatabaseSettings.urlKey))

namespace Command

/-- Why a command fails. -/
inductive Cause where
  | configuration (fault : ConfigurationFault)
  | assembly (fault : AssemblyFault)
  | engine (fault : EngineFault)
  | other (message : String)
deriving DecidableEq, Inhabited

def Cause.messages : Cause → List String
  | .configuration fault => [fault.message]
  | .assembly fault => fault.messages
  | .engine fault => [fault.message]
  | .other message => [message]

/-- A failed command. -/
structure Failure where
  /-- What was being done, the widest context first. -/
  contexts : List String
  cause : Cause
deriving DecidableEq, Inhabited

/-- A failure without a context. -/
def Failure.plain (cause : Cause) : Failure := ⟨[], cause⟩

/-- The one line that reports a failure: its contexts and its causes. -/
def Failure.text (failure : Failure) : String :=
  Text.joined ": " (failure.contexts ++ failure.cause.messages)

/-- How a command ends, to whoever called it. -/
inductive ExitCode where
  | success
  | runNotSucceeded
  | configurationError
  | runtimeError
deriving DecidableEq, Inhabited, Repr

namespace ExitCode

def number : ExitCode → Nat
  | .success => 0
  | .runNotSucceeded => 1
  | .configurationError => 2
  | .runtimeError => 3

/-- A run that still waits for a job counts as a success. -/
def ofStatus : RunStatus → ExitCode
  | .failed | .canceled => .runNotSucceeded
  | .pending | .running | .succeeded => .success

def ofCause : Cause → ExitCode
  | .configuration _ | .engine (.configuration _) => .configurationError
  | .assembly (.configuration _) | .assembly (.backend _) => .configurationError
  | _ => .runtimeError

end ExitCode

end Command

end Vetting
