import Vetting.Proofs.Run.Invocation
import Vetting.Proofs.Run.Passage

/-!
Contract: invocations one after the other, none of which is cut short.

Owns:
- `Conducted`: executions, callbacks and cancellations of any runs, each of which is done
  before the next one begins, while writes work, and each with answers of its own;
- that the tables of the store agree all the time;
- `Invoked`: what one of them makes of a store;
- what holds of a store that has been conducted, if each operation leaves it so;
- the execution of the example.

Does not own: what is true of such a store.
-/

namespace Vetting

open Execution
open Relation (ReflTransGen)

/-- An invocation, and what may be answered to it from outside. -/
structure Episode where
  invocation : Invocation
  mayAnswer : (request : Request) → request.Answer → Prop

/-- Invocations one after the other, each of which is done before the next one. -/
inductive Conducted (equipment : Equipment) (origin : World) : List Episode → World → Prop
  | start : Conducted equipment origin [] origin
  | invoked {episodes : List Episode} {world after : World} {requests : List Request}
      (conducted : Conducted equipment origin episodes world) (episode : Episode)
      (runs : (episode.invocation.program equipment).Runs episode.mayAnswer world requests (some ())
        after) :
    Conducted equipment origin (episodes ++ [episode]) after

/-- A program runs in the same way if nobody cares about its result. -/
theorem Execution.Program.Runs.forgetful {α : Type}
    {mayAnswer : (request : Request) → request.Answer → Prop} {program : Program α}
    {world after : World} {requests : List Request} {result? : Option α}
    (runs : program.Runs mayAnswer world requests result? after) :
    program.forgetful.Runs mayAnswer world requests (result?.map fun _ => ()) after := by
  induction runs with
  | done result world => exact .done () world
  | stopped request next world => exact .stopped request (fun answer => (next answer).forgetful) world
  | asked answers _ inductionHypothesis => exact .asked answers inductionHypothesis

section Operations

variable {mayAnswer : (request : Request) → request.Answer → Prop} {equipment : Equipment}
  {store after : Store} {run : Run}

/-- A store takes writes, and its tables agree. -/
structure Store.Orderly (store : Store) : Prop where
  coherent : store.Coherent
  writable : store.failingWrites = false

theorem Store.Orderly.serves (orderly : store.Orderly) (held : store.runs.get? run.id = some run) :
    store.Serves run := ⟨orderly.coherent, orderly.writable, held⟩

theorem Store.Serves.orderly (serves : store.Serves run) : store.Orderly :=
  ⟨serves.coherent, serves.writable⟩

theorem Store.Orderly.withRun (orderly : store.Orderly) (run : Run) : (store.withRun run).Orderly :=
  ⟨orderly.coherent.withRun run, orderly.writable⟩

theorem Execution.Performed.orderly (performed : Performed mayAnswer equipment store run after)
    (serves : store.Serves run) : after.Orderly := by
  cases performed with
  | idle => exact serves.orderly
  | rests enters takes => exact (Store.serves_of_takes takes (serves.withRun _)).orderly
  | closes enters closed =>
    cases closed with
    | intro takes => exact (Store.serves_of_takes takes (serves.withRun _)).orderly.withRun _

theorem Execution.Answered.orderly {stepRun : StepRun} {envelope : Envelope}
    {key? : Option String} {outcome : CallbackOutcome}
    (answered : Answered equipment store run stepRun envelope key? outcome after)
    (orderly : store.Orderly) (held : store.stepRuns.get? stepRun.id = some stepRun)
    (sameId : run.id = stepRun.runId) : after.Orderly := by
  cases answered with
  | refused => exact orderly
  | taken _ applied =>
    obtain ⟨_, coherent, same⟩ := applied.elsewhere
      (orderly.coherent.withReceipts (receiptsWith store.receipts key?)) held sameId
    exact ⟨coherent, same.trans orderly.writable⟩

theorem Execution.Canceled.orderly (canceled : Canceled store run after) (orderly : store.Orderly) :
    after.Orderly := by
  cases canceled with
  | already => exact orderly
  | closed => exact orderly.withRun _
  | flagged => exact orderly.withRun _

/-! ### Operations on what is not there -/

theorem Execution.ensures_execute_absent {world : World} {id : Uuid}
    (absent : world.store.runs.get? id = none) (resumeFrom : Option Int) :
    Ensures (.unwatched mayAnswer) (execute equipment id resumeFrom) world (fun _ _ => False)
      fun _ after => after.store = world.store := by
  cases resumeFrom with
  | none => exact ensures_execute_missing unwatched_watches absent fun _ _ => rfl
  | some order =>
    simp only [execute, enterRun, ensures_bind]
    rw [ensures_store, Store.answer_run_missing absent]
    exact ⟨trivial, rfl⟩

/-! ### Everything that is conducted -/

/-- What a job leaves when it is done, whatever its result. -/
theorem Execution.Program.Runs.completes {α : Type} {job : Job α} {world last : World}
    {requests : List Request} {left : World → Prop}
    (runs : job.run.forgetful.Runs mayAnswer world requests (some ()) last)
    (ensures : Execution.Ensures (.unwatched mayAnswer) job world (fun _ => left) fun _ => left) :
    left last := by
  have reaches : Program.Ensures (.unwatched mayAnswer) job.run.forgetful world
      fun _ => left := by
    apply (Program.ensures_bind _ _ _).mpr
    refine Program.Ensures.imp ensures fun result after reached => ?_
    cases result <;> exact reached
  exact Program.Runs.reaches runs reaches

/-- What an invocation makes of a store that takes writes, if it is not cut short. -/
inductive Invoked (equipment : Equipment) (store : Store) : Episode → Store → Prop
  /-- It is about something that is not there. -/
  | vain (episode : Episode) : Invoked equipment store episode store
  | execute {run : Run} {resumeFrom : Option Int}
      {mayAnswer : (request : Request) → request.Answer → Prop} {after : Store}
      (serves : store.Serves run) (performs : Performs mayAnswer equipment store run after) :
    Invoked equipment store ⟨.execute run.id resumeFrom, mayAnswer⟩ after
  | callback {run : Run} {stepRun : StepRun} {envelope : Envelope} {key? : Option String}
      {outcome : CallbackOutcome} {mayAnswer : (request : Request) → request.Answer → Prop}
      {after : Store} (serves : store.Serves run)
      (held : store.stepRuns.get? stepRun.id = some stepRun) (sameId : run.id = stepRun.runId)
      (answered : Answered equipment store run stepRun envelope key? outcome after)
      (summedUp : store.SummedUp stepRun.runId → after.SummedUp stepRun.runId) :
    Invoked equipment store ⟨.callback stepRun.id envelope key?, mayAnswer⟩ after
  | cancel {run : Run} {mayAnswer : (request : Request) → request.Answer → Prop} {after : Store}
      (serves : store.Serves run) (canceled : Canceled store run after)
      (summedUp : store.SummedUp run.id → after.SummedUp run.id) :
    Invoked equipment store ⟨.cancel run.id, mayAnswer⟩ after

theorem invoked_of_runs {world last : World} {requests : List Request} {episode : Episode}
    (orderly : world.store.Orderly)
    (runs : (episode.invocation.program equipment).Runs episode.mayAnswer world requests (some ())
      last) :
    Invoked equipment world.store episode last.store := by
  obtain ⟨invocation, mayAnswer⟩ := episode
  have inVain : ∀ invocation, last.store = world.store →
      Invoked equipment world.store ⟨invocation, mayAnswer⟩ last.store := by
    intro invocation same
    rw [same]
    exact .vain _
  cases invocation with
  | execute id resumeFrom =>
    cases held : world.store.runs.get? id with
    | none =>
      apply inVain
      apply runs.completes
      exact (ensures_execute_absent held resumeFrom).imp (fun _ _ => False.elim) fun _ _ same => same
    | some run =>
      obtain rfl := orderly.coherent.runIds _ _ held
      have serves := orderly.serves held
      refine .execute serves ?_
      apply runs.completes
      exact (ensures_execute_performed serves resumeFrom).imp (fun _ _ performs => performs)
        fun _ _ => False.elim
  | callback id envelope key? =>
    obtain ⟨store, log, clock⟩ := world
    cases held : store.stepRuns.get? id with
    | none =>
      apply inVain
      apply runs.completes
      exact ensures_completeCallback_missing unwatched_watches held key? fun _ => rfl
    | some stepRun =>
      obtain rfl := orderly.coherent.stepRunIds _ _ held
      obtain ⟨run, heldRun⟩ := orderly.coherent.rooted _ _ held
      have sameId := orderly.coherent.runIds _ _ heldRun
      have serves : store.Serves run := orderly.serves (sameId ▸ heldRun)
      have reached : ∃ outcome,
          Answered equipment store run stepRun envelope key? outcome last.store ∧
            (store.SummedUp stepRun.runId → last.store.SummedUp stepRun.runId) := by
        apply runs.completes
        exact (ensures_completeCallback_summedUp unwatched_watches orderly.writable held rfl heldRun
          sameId key?).imp (fun outcome _ reached => ⟨outcome, reached⟩) fun _ _ => False.elim
      obtain ⟨outcome, answered, summedUp⟩ := reached
      exact .callback serves held sameId answered summedUp
  | cancel id =>
    obtain ⟨store, log, clock⟩ := world
    cases held : store.runs.get? id with
    | none =>
      apply inVain
      apply runs.completes
      exact ensures_cancel_missing unwatched_watches held fun _ => rfl
    | some run =>
      obtain rfl := orderly.coherent.runIds _ _ held
      have serves : store.Serves run := orderly.serves held
      have reached : Canceled store run last.store ∧
          (store.SummedUp run.id → last.store.SummedUp run.id) := by
        apply runs.completes
        exact (ensures_cancel_summedUp unwatched_watches orderly.writable held).imp
          (fun _ _ reached => reached) fun _ _ => False.elim
      exact .cancel serves reached.1 reached.2

theorem Invoked.orderly {episode : Episode} (invoked : Invoked equipment store episode after)
    (orderly : store.Orderly) : after.Orderly := by
  cases invoked with
  | vain => exact orderly
  | execute serves performs => exact performs.performed.orderly serves
  | callback _ held sameId answered => exact answered.orderly orderly held sameId
  | cancel _ canceled => exact canceled.orderly orderly

/-- What operations leave a store as, if they are allowed. -/
structure Kept (equipment : Equipment) (allowed : Episode → Prop) (holds : Store → Prop) :
    Prop where
  performs : ∀ {store after : Store} {run : Run} {resumeFrom : Option Int}
    {mayAnswer : (request : Request) → request.Answer → Prop},
    allowed ⟨.execute run.id resumeFrom, mayAnswer⟩ → store.Serves run → holds store →
    Performed mayAnswer equipment store run after → holds after
  answers : ∀ {store after : Store} {run : Run} {stepRun : StepRun} {envelope : Envelope}
    {key? : Option String} {outcome : CallbackOutcome}
    {mayAnswer : (request : Request) → request.Answer → Prop},
    allowed ⟨.callback stepRun.id envelope key?, mayAnswer⟩ → store.Serves run →
    store.stepRuns.get? stepRun.id = some stepRun → run.id = stepRun.runId → holds store →
    Answered equipment store run stepRun envelope key? outcome after →
    (store.SummedUp stepRun.runId → after.SummedUp stepRun.runId) → holds after
  cancels : ∀ {store after : Store} {run : Run}, store.Serves run → holds store →
    Canceled store run after → (store.SummedUp run.id → after.SummedUp run.id) → holds after

theorem Kept.invoked {allowed : Episode → Prop} {holds : Store → Prop} {episode : Episode}
    (kept : Kept equipment allowed holds) (isAllowed : allowed episode) (held : holds store)
    (invoked : Invoked equipment store episode after) : holds after := by
  cases invoked with
  | vain => exact held
  | execute serves performs => exact kept.performs isAllowed serves held performs.performed
  | callback serves isHeld sameId answered summedUp =>
    exact kept.answers isAllowed serves isHeld sameId held answered summedUp
  | cancel serves canceled summedUp => exact kept.cancels serves held canceled summedUp

/-- What operations keep, and holds at first, holds of everything that has been conducted. -/
theorem Conducted.keeps {allowed : Episode → Prop} {holds : Store → Prop} {origin world : World}
    {episodes : List Episode} (conducted : Conducted equipment origin episodes world)
    (kept : Kept equipment allowed holds) (areAllowed : ∀ episode ∈ episodes, allowed episode)
    (orderly : origin.store.Orderly) (initially : holds origin.store) :
    world.store.Orderly ∧ holds world.store := by
  induction conducted with
  | start => exact ⟨orderly, initially⟩
  | invoked _ episode runs inductionHypothesis =>
    obtain ⟨orderly, held⟩ :=
      inductionHypothesis fun earlier member => areAllowed earlier (List.mem_append_left _ member)
    have invoked := invoked_of_runs orderly runs
    exact ⟨invoked.orderly orderly,
      kept.invoked (areAllowed episode (List.mem_append_right _ (.head _))) held invoked⟩

end Operations

namespace Example

theorem orderly_store : store.Orderly := ⟨coherent_store, rfl⟩

/-- The example is executed, and its job answered in one way. -/
def episode (response : JobResponse) : Episode :=
  ⟨.execute run.id none, (surroundings response).answers⟩

/-- The run has been entered. -/
def entered (response : JobResponse) : World :=
  (World.takeAlone (surroundings response) 6 (execute equipment run.id none).run world).2

/-- The execution is done. -/
def carriedOut (response : JobResponse) : World :=
  (((stepping steps).run (World.answer (surroundings response))).run (entered response)).2

theorem conducted_carriedOut (response : JobResponse) :
    Conducted equipment world [episode response] (carriedOut response) := by
  obtain ⟨_, runs⟩ := World.runs_run (surroundings response) (stepping steps) (entered response)
  change (stepping steps).Runs _ _ _ _ (carriedOut response) at runs
  generalize carriedOut response = last at runs ⊢
  have least : leastOrder ≤ 10 := by decide
  rw [← stepping_steps least] at runs
  obtain ⟨_, whole⟩ := @World.runs_takeAlone _ (surroundings response) 6
    (execute equipment run.id none).run world _ _ _ runs
  exact .invoked .start (episode response) whole.forgetful

end Example

end Vetting
