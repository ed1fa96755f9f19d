import Vetting.Rehearsal.Effect
import Vetting.Execution.Memory

/-!
Contract: rehearsing programs over stores in memory.

Owns:
- doubles of validators, actions and the backend, with effects that happen as they
  work;
- scenes: a world, the outages in it, and what the doubles have been asked;
- answering the requests of a program in a scene.

Does not own: what is rehearsed.

A plug-in without a double works as it always does.  A request meets its outage
before it reaches the store, so that a request that fails has changed nothing.
-/

namespace Vetting.Rehearsal

open Execution (Job Request Surroundings World)

/-- A validator whose outcome is given beforehand. -/
structure ValidatorDouble where
  effects : List Effect
  outcome : Except EngineFault ValidationOutcome

/-- An action whose outcome is given beforehand. -/
structure ActionDouble where
  effects : List Effect
  outcome : ActionContext → Except EngineFault ActionOutcome

/-- A backend whose answers are given beforehand; they may depend on how many jobs there were. -/
structure BackendDouble where
  available : Bool
  effects : List Effect
  answer : Nat → JobRequest → Except BackendFault JobResponse

/-- Who takes part in a rehearsal. -/
structure Cast where
  validators : Dictionary ValidatorDouble
  actions : Dictionary ActionDouble
  backend? : Option BackendDouble
  surroundings : Surroundings

/-- The state of a rehearsal. -/
structure Scene where
  world : World
  outages : Table StoreRequest.Kind Outage
  racing : Bool
  /-- The jobs that the double of the backend has been asked for. -/
  jobs : List JobRequest
  /-- How often each double has been asked. -/
  calls : Dictionary Nat
  /-- The run that effects are about. -/
  runId : Uuid
  /-- The step runs to which the store has given an identifier. -/
  identified : List (Uuid × String)
deriving Inhabited

namespace Scene

def ofStore (store : Store) (doubles : List String) : Scene where
  world := { World.empty with store }
  outages := []
  racing := false
  jobs := []
  calls := Dictionary.ofEntries (doubles.map fun name => (name, 0))
  runId := .zero
  identified := []

/-- A moment of the scene's clock. -/
def stamp : StateM Scene Execution.Stamp := fun scene =>
  (World.stampOf scene.world.clock,
    { scene with world := { scene.world with clock := scene.world.clock + 1 } })

/-- Asks the store itself, past all outages. -/
def askStore (request : StoreRequest) : StateM Scene request.Answer := fun scene =>
  let (answer, store) := scene.world.store.answer request
  (answer, { scene with world := { scene.world with store } })

/-- The fault with which the next request of a kind fails, if it does. -/
def meetOutage (kind : StoreRequest.Kind) : StateM Scene (Option EngineFault) := fun scene =>
  match scene.outages.get? kind with
  | none => (none, scene)
  | some outage =>
    let (fault?, after) := outage.next
    (fault?, { scene with outages := scene.outages.set kind after })

/-- Keeps in mind that the store has given a step run its identifier. -/
def identify (stepRun : StepRun) : StateM Scene Unit := modify fun scene =>
  { scene with identified := (stepRun.id, stepRun.stepKey) :: scene.identified }

/-- What a request to the store brings about besides its answer. -/
def follow : (request : StoreRequest) → request.Answer → StateM Scene Unit
  | .acquire _ _ _, .ok (.created stepRun) => identify stepRun
  | .acquire _ _ _, .ok (.existing stepRun) => do
    if (← get).racing then
      let _ ← askStore (.restart stepRun.id stepRun.attempt (← stamp).time)
  | _, _ => pure ()

/-- Asks the store, unless the request meets an outage. -/
def store (request : StoreRequest) : StateM Scene request.Answer := do
  match ← meetOutage request.kind with
  | some fault => return .error fault
  | none =>
    let answer ← askStore request
    follow request answer
    return answer

/-- Lets an effect happen. -/
def happen (effect : Effect) : StateM Scene Unit := do
  let scene ← get
  match effect with
  | .failWrites on =>
    set { scene with world.store.failingWrites := on }
  | .breakRequests kind outage => set { scene with outages := scene.outages.set kind outage }
  | .mendRequests kind => set { scene with outages := scene.outages.remove kind }
  | .race on => set { scene with racing := on }
  | .flagCancel => let _ ← askStore (.flagCancel scene.runId)
  | .closeRun status error =>
    let _ ← askStore (.closeRun scene.runId status error (← stamp).time)
  | .finishSteps status error =>
    for stepRun in scene.world.store.stepRunsOf scene.runId do
      if stepRun.status == .running then
        let _ ← askStore (.updateStepRun { stepRun with status, error })

def countCall (name : String) : StateM Scene Unit := modify fun scene =>
  let before := (Dictionary.lookup? name scene.calls).getD 0
  { scene with calls := Dictionary.insert name (before + 1) scene.calls }

def validate (cast : Cast) (validator : Validator) (submission : Submission) :
    StateM Scene (Except EngineFault ValidationOutcome) := do
  match Dictionary.lookup? validator.type cast.validators with
  | none => return cast.surroundings.validate validator submission
  | some double =>
    countCall validator.type
    double.effects.forM happen
    return double.outcome

def act (cast : Cast) (type : String) (context : ActionContext) :
    StateM Scene (Except EngineFault ActionOutcome) := do
  match Dictionary.lookup? type cast.actions with
  | none => return cast.surroundings.act type context
  | some double =>
    countCall type
    double.effects.forM happen
    return double.outcome context

def launch (cast : Cast) (job : JobRequest) :
    StateM Scene (Except BackendFault JobResponse) := do
  match cast.backend? with
  | none => return cast.surroundings.launch job
  | some double =>
    modify fun scene => { scene with jobs := scene.jobs ++ [job] }
    double.effects.forM happen
    return double.answer (← get).jobs.length job

/-- Answers a request of a program. -/
def answer (cast : Cast) : (request : Request) → StateM Scene request.Answer
  | .store request => store request
  | .log runId kind => do
    let time := (← stamp).time
    modify fun scene =>
      { scene with world := { scene.world with log := (scene.world.log.append runId kind time).1 } }
  | .stamp => stamp
  | .validate validator submission => validate cast validator submission
  | .act type context => act cast type context
  | .backendAvailable => return match cast.backend? with
    | some double => double.available
    | none => cast.surroundings.backendAvailable
  | .launch job => launch cast job

/-- The step run of a step, or one that would begin now. -/
def stepRunFor (runId : Uuid) (step : Step) : StateM Scene StepRun := do
  let store := (← get).world.store
  match store.stepRunOf? runId step.key with
  | some stepRun => return stepRun
  | none => return .begun store.freshId runId step (← stamp).time

/-- Puts a step run into the store, past all outages. -/
def plant (stepRun : StepRun) : StateM Scene Unit := do
  if stepRun.id = (← get).world.store.freshId then identify stepRun
  modify fun scene => { scene with world.store := scene.world.store.putStepRun stepRun }

/-- Runs a program; effects are about the given run. -/
def perform (cast : Cast) (runId : Uuid) (program : Execution.Program α) : StateM Scene α := do
  modify fun scene => { scene with runId }
  program.run (answer cast)

/-- Runs a job; effects are about the given run. -/
def play (cast : Cast) (runId : Uuid) (job : Job α) : StateM Scene (Except EngineFault α) :=
  perform cast runId job.run

end Scene

open Execution (Equipment Processor) in
/-- Processes a step in a given way even if it has ended; in its own way if none is given. -/
def processStep (equipment : Equipment) (processor? : Option Processor) (runId : Uuid)
    (step : Step) : Job StepResult := do
  let handle ← Execution.beginStep runId step
  let run ← Job.store (.run runId)
  let submission ← Job.store (.submission run.submissionId)
  let signals ← Execution.collectSignals runId step.order
  let process := (processor?.map Processor.process).getD Execution.dispatch
  process equipment ⟨run, step, handle.stepRun, submission, signals⟩

end Vetting.Rehearsal
