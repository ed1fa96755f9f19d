import Vetting.Database.Retry
import Vetting.Database.Row
import Vetting.Store.Request
import Vetting.Workflow.Event

/-!
Contract: what becomes of requests when no connection to the database can be had.

Owns:
- what is refused before a connection is asked for;
- the fault of a request whose every connection fails;
- the event that is answered when it cannot be stored, and the list when none can be
  fetched.

Does not own: the statements that are carried out over a connection.

Connections are asked for through one function, in any monad, so that they can be
counted.
-/

namespace Vetting.Database

variable {m : Type → Type} [Monad m]

/-- What is wrong with a request before any connection is asked for. -/
def refusal? : StoreRequest → Option EngineFault
  | .updateStepRun stepRun =>
    match StepRunRow.ofStepRun stepRun with
    | .ok _ => none
    | .error fault => some fault.toEngineFault
  | .restart _ attempt _ =>
    if attempt ≤ greatestAttempt then none
    else some (.internal ("attempt " ++ toString attempt))
  | _ => none

/-- Work for which no connection can be had. -/
private def unconnected (connect : m DatabaseFault) : m (Except DatabaseFault Empty) := do
  return .error (← connect)

/-- The fault of work whose every connection fails. -/
def faultOf (connect : m DatabaseFault) : m DatabaseFault := do
  match ← persistently (unconnected connect) with
  | .error fault => return fault
  | .ok impossible => nomatch impossible

/-- The fault of a request whose every connection fails. -/
def faultOfRequest (connect : m DatabaseFault) (request : StoreRequest) : m EngineFault :=
  match refusal? request with
  | some fault => return fault
  | none => do return (← faultOf connect).toEngineFault

/-- The event that is answered: its number is 0, since it is not stored. -/
def unstoredEvent (connect : m DatabaseFault) (runId : Uuid) (kind : EventKind) (now : Timestamp) :
    m Event := do
  discard (faultOf connect)
  return ⟨0, runId, kind, now⟩

/-- The events that are answered: none. -/
def unfetchedEvents (connect : m DatabaseFault) : m (List Event) := do
  discard (faultOf connect)
  return []

end Vetting.Database
