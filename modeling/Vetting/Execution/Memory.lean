import Vetting.Execution.Engine
import Vetting.Store.Memory
import Vetting.Width

/-!
Contract: running programs over stores in memory.

Owns:
- worlds: a store, an event log and a clock;
- answering the requests of a program in a world, given plug-ins and a backend;
- backends that are not available.

Does not own: programs, and how several of them take turns.
-/

namespace Vetting.Execution

/-- Plug-ins and a backend whose answers depend only on what they are given. -/
structure Surroundings where
  validate : Validator → Submission → Except EngineFault ValidationOutcome
  act : String → ActionContext → Except EngineFault ActionOutcome
  backendAvailable : Bool
  launch : JobRequest → Except BackendFault JobResponse

/-- Surroundings without plug-ins, and with a backend that is not available for a reason. -/
def Surroundings.bare (reason : String) : Surroundings where
  validate validator _ :=
    .error (.configuration ("validator type '" ++ validator.type ++ "' is not registered"))
  act type _ := .error (.configuration ("action type '" ++ type ++ "' is not registered"))
  backendAvailable := false
  launch _ := .error (.unavailable reason)

/-- The name of a backend that is not available. -/
def unavailableName : String := "unavailable"

/-- Why there is no backend if none is configured. -/
def noBackend : String := "no execution backend configured"

/-- Equipment without plug-ins and backend. -/
def Equipment.bare : Equipment where
  checker := .standard
  validators := []
  actions := []
  backendName := unavailableName

/-- Stores in memory, and a clock that every stamp moves on. -/
structure World where
  store : Store
  log : EventLog
  clock : Nat
deriving Inhabited

namespace World

def empty : World := ⟨.empty, [], 0⟩

/-- The stamp of a clock reading: a millisecond for each reading, and identifiers of its own. -/
def stampOf (clock : Nat) : Stamp where
  time := ⟨clock / 1000, clock % 1000 * 1000000⟩
  identifier index := ⟨(clock + 1) * Width.count 64 + index⟩

/-- Answers a request. -/
def answer (surroundings : Surroundings) (request : Request) : StateM World request.Answer :=
  match request with
  | .store request => fun world =>
    let (answer, store) := world.store.answer request
    (answer, { world with store })
  | .log runId kind => fun world =>
    ((), { world with log := (world.log.append runId kind (stampOf world.clock).time).1 })
  | .stamp => fun world => (stampOf world.clock, { world with clock := world.clock + 1 })
  | .validate validator submission => pure (surroundings.validate validator submission)
  | .act type context => pure (surroundings.act type context)
  | .backendAvailable => pure surroundings.backendAvailable
  | .launch job => pure (surroundings.launch job)

/-- Runs a job in a world. -/
def runJob (surroundings : Surroundings) (job : Job α) (world : World) :
    Except EngineFault α × World :=
  (job.run.run (answer surroundings)).run world

end World

end Vetting.Execution
