import Vetting.Store.Request
import Vetting.Workflow.Event
import Vetting.Backend.Job
import Vetting.Execution.Plugin

/-!
Contract: programs that ask the outside for one thing after the other.

Owns:
- everything a program can ask for: the store, the event log, the clock, plug-ins
  and the backend;
- programs as trees: a request, and for each answer how the program goes on;
- running a program with any way of answering.

Does not own: what the engine asks for, and how requests are answered.

Between two requests a program does nothing that can be observed from outside.  So
stopping it, or letting several programs take turns, is possible exactly at its
requests.
-/

namespace Vetting.Execution

/-- A moment from the clock, and identifiers for what is recorded at that moment. -/
structure Stamp where
  time : Timestamp
  identifier : Nat → Uuid

/-- What a program can ask for. -/
inductive Request where
  | store (request : StoreRequest)
  /-- Adds an event to the log. -/
  | log (runId : Uuid) (kind : EventKind)
  | stamp
  /-- Lets an inline validator look at a submission. -/
  | validate (validator : Validator) (submission : Submission)
  | act (type : String) (context : ActionContext)
  | backendAvailable
  /-- Hands a job to the backend. -/
  | launch (job : JobRequest)

/-- The type of the answers to a request. -/
@[reducible] def Request.Answer : Request → Type
  | .store request => request.Answer
  | .log _ _ => Unit
  | .stamp => Stamp
  | .validate _ _ => Except EngineFault ValidationOutcome
  | .act _ _ => Except EngineFault ActionOutcome
  | .backendAvailable => Bool
  | .launch _ => Except BackendFault JobResponse

/-- A program with a result. -/
inductive Program (α : Type) where
  | done (result : α)
  | ask (request : Request) (next : request.Answer → Program α)

namespace Program

variable {α β : Type}

/-- One program after the other. -/
def bind : Program α → (α → Program β) → Program β
  | .done result, next => next result
  | .ask request rest, next => .ask request fun answer => bind (rest answer) next

instance : Monad Program where
  pure := .done
  bind := bind

/-- Runs a program with a way of answering. -/
def run {m : Type → Type} [Monad m] (answer : (request : Request) → m request.Answer) :
    Program α → m α
  | .done result => pure result
  | .ask request next => do run answer (next (← answer request))

theorem bind_done (program : Program α) : program.bind .done = program := by
  induction program with
  | done result => rfl
  | ask request next ih => simp [bind, ih]

theorem bind_assoc {γ : Type} (program : Program α) (next : α → Program β)
    (last : β → Program γ) :
    (program.bind next).bind last = program.bind fun result => (next result).bind last := by
  induction program with
  | done result => rfl
  | ask request rest ih => simp [bind, ih]

instance : LawfulMonad Program :=
  LawfulMonad.mk' Program (fun program => bind_done program) (fun _ _ => rfl) bind_assoc

end Program

/-- A program that may fail. -/
abbrev Job (α : Type) : Type := ExceptT EngineFault Program α

namespace Job

/-- Asks the store. -/
def store (request : StoreRequest) : Job request.Result :=
  ExceptT.mk (.ask (.store request) .done)

/-- Adds an event to the log. -/
def log (runId : Uuid) (kind : EventKind) : Job Unit :=
  ExceptT.lift (.ask (.log runId kind) .done)

/-- Asks the clock. -/
def stamp : Job Stamp := ExceptT.lift (.ask .stamp .done)

def now : Job Timestamp := do return (← stamp).time

def validate (validator : Validator) (submission : Submission) : Job ValidationOutcome :=
  ExceptT.mk (.ask (.validate validator submission) .done)

def act (type : String) (context : ActionContext) : Job ActionOutcome :=
  ExceptT.mk (.ask (.act type context) .done)

def backendAvailable : Job Bool := ExceptT.lift (.ask .backendAvailable .done)

/-- Hands a job to the backend. -/
def launch (request : JobRequest) : Job JobResponse :=
  ExceptT.mk (.ask (.launch request) fun answer =>
    .done (answer.mapError BackendFault.toEngineFault))

end Job

end Vetting.Execution
