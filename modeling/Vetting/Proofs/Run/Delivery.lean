import Vetting.Command.Session
import Vetting.Proofs.Run.History

/-!
Contract: deliveries may come more than once.

Owns:
- `Delivery`: what is delivered, and carrying it out as a command does;
- `Store.Outlasts`: what has ended stays so, and tokens and receipts are kept;
- `Delivery.Spent`: a store from which it can be seen that a delivery has been made;
- that a delivery which succeeded is spent ever after, and that a spent one does nothing.

Does not own: what the first delivery does to a run (`Vetting.Proofs.Run.Tending`).
-/

namespace Vetting

open Execution
open Command (Session)
open Store (Elsewhere Ends)

/-- What is delivered: orders to execute and to cancel a run, and callbacks of jobs. -/
inductive Delivery where
  | execute (runId : Uuid)
  | complete (stepRunId : Uuid) (envelope : Envelope) (key? : Option String)
  | cancel (runId : Uuid)

namespace Delivery

/-- Carries out a delivery as the command for it does. -/
def perform (equipment : Equipment) : Delivery → Session Command.Report
  | .execute runId => Command.execute equipment runId none
  | .complete stepRunId envelope key? => Command.complete equipment stepRunId envelope key?
  | .cancel runId => Command.cancel runId

/-- It can be seen from the store that the delivery has been made. -/
def Spent (store : Store) : Delivery → Prop
  | .execute runId => ∃ run, store.runs.get? runId = some run ∧ run.status ≠ .pending
  | .complete stepRunId _ key? => ∃ stepRun, store.stepRuns.get? stepRunId = some stepRun ∧
      match key? with
      | none => stepRun.status.isTerminal = true
      | some key => isStale stepRun key = true ∨ key ∈ store.receipts
  | .cancel runId => ∃ run, store.runs.get? runId = some run ∧ run.status.isTerminal = true

end Delivery

theorem Command.ensures_ofJob {α : Type} {regime : Regime} {world : World} (job : Job α)
    {good : α → World → Prop} {bad : Command.Failure → World → Prop} :
    Ensures regime (Session.ofJob job) world good bad ↔
      Ensures regime job world good fun fault => bad (.plain (.engine fault)) := by
  refine (Program.ensures_bind _ _ _).trans ?_
  refine ⟨fun ensures => Program.Ensures.imp ensures ?_,
    fun ensures => Program.Ensures.imp ensures ?_⟩
  all_goals
    intro result after reached
    cases result with
    | ok result => exact reached
    | error fault => exact reached

/-! ### A spent delivery does nothing -/

section Spent

variable {regime : Regime} {store : Store} {log : EventLog} {clock : Nat} {equipment : Equipment}

/-- A callback that has been taken in before, or never will be, does nothing and calls nothing. -/
theorem Execution.ensures_completeCallback_spent {stepRun : StepRun} {run : Run} {id : Uuid}
    (watches : ∀ world request, request.isOutside = false → regime.watch world request)
    (held : store.stepRuns.get? id = some stepRun)
    (heldRun : store.runs.get? stepRun.runId = some run) (envelope : Envelope)
    {key? : Option String} (spent : match key? with
      | none => stepRun.status.isTerminal = true
      | some key => isStale stepRun key = true ∨ key ∈ store.receipts)
    {good : CallbackOutcome → World → Prop} {bad : EngineFault → World → Prop}
    (reached : ∀ outcome log clock, outcome.resumeFrom = none → good outcome ⟨store, log, clock⟩) :
    Ensures regime (completeCallback equipment id envelope key?) ⟨store, log, clock⟩ good bad := by
  have ignores : ∀ reason duplicate log clock, Ensures regime
      (ignoreCallback stepRun reason duplicate) ⟨store, log, clock⟩ good bad :=
    fun reason duplicate log clock =>
      ensures_ignoreCallback (fun request inside _ _ => watches _ request inside) heldRun _ _
        fun log clock => reached _ log clock rfl
  rw [completeCallback, ensures_bind]
  refine (ensures_ask (Store.answer_stepRun held)).mpr ⟨watches _ _ rfl, ?_⟩
  cases key? with
  | none =>
    dsimp only
    rw [applyCallback, if_pos spent]
    exact ignores _ _ _ _
  | some key =>
    dsimp only at spent ⊢
    rw [ensures_ite]
    refine ⟨fun _ => ignores _ _ _ _, fun admitted => ?_⟩
    rcases spent with stale | known
    · exact absurd stale admitted
    · simp only [ensures_bind, ensures_now]
      refine ⟨watches _ _ rfl, fun stamp clock => ?_⟩
      refine (ensures_ask (answer_recordCallback_known known _ _)).mpr ⟨watches _ _ rfl, ?_⟩
      simp only [Bool.false_eq_true, if_false]
      exact ignores _ _ _ _

theorem Delivery.ensures_perform_spent {delivery : Delivery}
    (watches : ∀ world request, request.isOutside = false → regime.watch world request)
    (coherent : store.Coherent) (spent : delivery.Spent store) :
    Ensures regime (delivery.perform equipment) ⟨store, log, clock⟩
      (fun _ after => after.store = store) fun _ _ => False := by
  cases delivery with
  | execute runId =>
    obtain ⟨run, held, begun⟩ := spent
    obtain rfl := coherent.runIds _ _ held
    rw [perform, Command.execute, ensures_bind, Command.ensures_ofJob]
    exact ensures_execute_duplicate
      (fun world request (_ : Store.Any world.store) inside => watches world request inside)
      held trivial begun fun _ _ => rfl
  | complete stepRunId envelope key? =>
    obtain ⟨stepRun, held, spent⟩ := spent
    obtain ⟨run, heldRun⟩ := coherent.rooted _ _ held
    rw [perform, Command.complete, ensures_bind, Command.ensures_ofJob]
    refine ensures_completeCallback_spent watches held heldRun envelope spent
      fun outcome log clock resumes => ?_
    rw [resumes]
    rfl
  | cancel runId =>
    obtain ⟨run, held, closed⟩ := spent
    obtain rfl := coherent.runIds _ _ held
    rw [perform, Command.cancel, ensures_bind, Command.ensures_ofJob]
    exact ensures_cancel_closed (fun _ inside _ _ => watches _ _ inside) held closed rfl

end Spent

/-! ### Stores that move on -/

/-- What has begun and what has ended stays so, and tokens and receipts are kept. -/
structure Store.Outlasts (before after : Store) : Prop where
  runs : ∀ id run, before.runs.get? id = some run → ∃ later, after.runs.get? id = some later ∧
    (run.status ≠ .pending → later.status ≠ .pending) ∧
    (run.status.isTerminal = true → later.status.isTerminal = true)
  stepRuns : ∀ id stepRun, before.stepRuns.get? id = some stepRun →
    ∃ later, after.stepRuns.get? id = some later ∧
      (stepRun.status.isTerminal = true → later.status.isTerminal = true) ∧
      later.output.jobKey? = stepRun.output.jobKey?
  receipts : ∀ key ∈ before.receipts, key ∈ after.receipts

namespace Store.Outlasts

variable {before middle after : Store}

theorem refl (store : Store) : store.Outlasts store :=
  ⟨fun _ run held => ⟨run, held, id, id⟩, fun _ stepRun held => ⟨stepRun, held, id, rfl⟩,
    fun _ => id⟩

theorem trans (first : before.Outlasts middle) (second : middle.Outlasts after) :
    before.Outlasts after where
  runs := by
    intro id run held
    obtain ⟨later, heldLater, begun, closed⟩ := first.runs id run held
    obtain ⟨last, heldLast, stillBegun, stillClosed⟩ := second.runs id later heldLater
    exact ⟨last, heldLast, stillBegun ∘ begun, stillClosed ∘ closed⟩
  stepRuns := by
    intro id stepRun held
    obtain ⟨later, heldLater, ended, key⟩ := first.stepRuns id stepRun held
    obtain ⟨last, heldLast, stillEnded, sameKey⟩ := second.stepRuns id later heldLater
    exact ⟨last, heldLast, stillEnded ∘ ended, sameKey.trans key⟩
  receipts := fun key known => second.receipts key (first.receipts key known)

theorem spent (outlasts : before.Outlasts after) {delivery : Delivery}
    (spent : delivery.Spent before) : delivery.Spent after := by
  cases delivery with
  | execute runId =>
    obtain ⟨run, held, begun⟩ := spent
    obtain ⟨later, heldLater, stillBegun, _⟩ := outlasts.runs _ _ held
    exact ⟨later, heldLater, stillBegun begun⟩
  | complete stepRunId envelope key? =>
    obtain ⟨stepRun, held, spent⟩ := spent
    obtain ⟨later, heldLater, ended, key⟩ := outlasts.stepRuns _ _ held
    refine ⟨later, heldLater, ?_⟩
    cases key? with
    | none => exact ended spent
    | some token =>
      rcases spent with stale | known
      · refine Or.inl ?_
        rw [isStale, key]
        exact stale
      · exact Or.inr (outlasts.receipts token known)
  | cancel runId =>
    obtain ⟨run, held, closed⟩ := spent
    obtain ⟨later, heldLater, _, stillClosed⟩ := outlasts.runs _ _ held
    exact ⟨later, heldLater, stillClosed closed⟩

theorem withReceipts (store : Store) (key? : Option String) :
    store.Outlasts (store.withReceipts (receiptsWith store.receipts key?)) where
  runs := (refl store).runs
  stepRuns := (refl store).stepRuns
  receipts := by
    intro key known
    cases key? with
    | none => exact known
    | some new => exact List.mem_cons_of_mem _ known

/-- A run that was begun no earlier than it is closed may get another record. -/
theorem withRun {store : Store} {run changed : Run} (held : store.runs.get? run.id = some run)
    (sameId : changed.id = run.id) (begun : run.status ≠ .pending → changed.status ≠ .pending)
    (closed : run.status.isTerminal = true → changed.status.isTerminal = true) :
    store.Outlasts (store.withRun changed) where
  runs := by
    intro runId old heldOld
    by_cases same : changed.id = runId
    · subst same
      rw [sameId, held] at heldOld
      cases heldOld
      exact ⟨changed, store.withRun_get? changed, begun, closed⟩
    · refine ⟨old, ?_, id, id⟩
      rw [Store.withRun, Table.get?_set, if_neg same]
      exact heldOld
  stepRuns := (refl store).stepRuns
  receipts := fun _ => id

end Store.Outlasts

theorem Execution.Conclusion.Settles.jobKey? {equipment : Equipment} {store : Store} {run : Run}
    {stepRun : StepRun} {envelope : Envelope} {verdict : Verdict} {error : Option String}
    (settles : (callbackConclusion equipment store run stepRun envelope).Settles
      (store.issuesOf stepRun.id) stepRun.output verdict error) :
    verdict.output.jobKey? = stepRun.output.jobKey? := by
  obtain ⟨code, detail, rfl⟩ | ⟨validator, ruleset, external, signals, rfl⟩ :=
    settles.fails_or_reports
  · rfl
  · rfl

/-- A callback that is taken in ends its step. -/
theorem Execution.Applied.outlasts {equipment : Equipment} {store after : Store} {run : Run}
    {stepRun : StepRun} {envelope : Envelope} {outcome : CallbackOutcome}
    (held : store.stepRuns.get? stepRun.id = some stepRun)
    (heldRun : store.runs.get? run.id = some run)
    (applied : Applied equipment store run stepRun envelope outcome after) :
    store.Outlasts after ∧
      ∃ ended, after.stepRuns.get? stepRun.id = some ended ∧ ended.status.isTerminal = true := by
  obtain ⟨terminal, rfl⟩ | ⟨_, verdict, error, ended, middle, settles, ends, reruns⟩ :=
    applied.same_or_settles
  · exact ⟨.refl _, stepRun, held, terminal⟩
  · obtain ⟨now, record⟩ := ends.record
    obtain ⟨findings, issues, rewrites⟩ := ends.rewrites
    have terminal : ended.status.isTerminal = true := by
      rw [record]
      exact settles.terminal
    have sameKey : ended.output.jobKey? = stepRun.output.jobKey? := by
      rw [← settles.jobKey?, record]
      rfl
    have heldEnded := rewrites.get?_self
    rw [ends.id] at heldEnded
    have outlasts : store.Outlasts middle := by
      refine ⟨?_, ?_, ?_⟩
      · rw [rewrites.runs]
        exact (Store.Outlasts.refl store).runs
      · intro other old heldOld
        rw [rewrites.get?, ends.id]
        by_cases same : stepRun.id = other
        · subst same
          rw [held] at heldOld
          cases heldOld
          exact ⟨ended, if_pos rfl, fun _ => terminal, sameKey⟩
        · exact ⟨old, by rw [if_neg same, heldOld], id, rfl⟩
      · intro key known
        rw [rewrites.receipts]
        exact known
    rcases reruns with ⟨rfl, _⟩ | ⟨later, keeps, status, rfl⟩
    · exact ⟨outlasts, ended, heldEnded, terminal⟩
    · have heldMiddle : middle.runs.get? run.id = some run := by rw [rewrites.runs, heldRun]
      refine ⟨outlasts.trans (.withRun heldMiddle keeps.id ?_ ?_), ended, heldEnded, terminal⟩
      · rw [status]
        rcases settledStatus_cases run verdict with same | ⟨_, closed⟩
        · rw [same]
          exact id
        · intro _ pending
          rw [pending] at closed
          cases closed
      · rw [status]
        rcases settledStatus_cases run verdict with same | ⟨_, closed⟩
        · rw [same]
          exact id
        · exact fun _ => closed

theorem Execution.Comes.begun {norm : Norm} {origin store : Store} {run later : Run}
    {settled reached : List StepRun} {current last : Option StepRun} {phase : Phase}
    (comes : Comes norm origin run settled current later store reached last phase) :
    later.status ≠ .pending := by
  intro pending
  have rest := comes.rest
  cases comes.stage with
  | fresh => cases rest
  | between status | waiting status | working status | failing status | succeeded status
  | failed status | lost status | canceled status =>
    rw [pending] at status
    cases status

theorem Execution.Comes.not_between {norm : Norm} {origin store : Store} {run later : Run}
    {settled reached : List StepRun} {current last : Option StepRun} {phase : Phase}
    (comes : Comes norm origin run settled current later store reached last phase) :
    phase ≠ .between := by
  intro isBetween
  have rest := comes.rest
  rw [isBetween] at rest
  cases rest

theorem Execution.Canceled.outlasts {store after : Store} {run : Run}
    (held : store.runs.get? run.id = some run) (canceled : Canceled store run after) :
    store.Outlasts after := by
  cases canceled with
  | already => exact .refl store
  | closed isOpen closes =>
    have hasClosed := closes.status
    refine .withRun held closes.id (fun _ => ?_) fun _ => ?_
    · rw [hasClosed]
      exact fun no => nomatch no
    · rw [hasClosed]
      rfl
  | flagged => exact .withRun held rfl id id

/-- A step run that is not settled between operations awaits its job or has ended. -/
theorem Calm.rests {norm : Norm} {run : Run} {store : Store} {settled : List StepRun}
    {current : Option StepRun} {phase : Phase} (calm : Calm norm run store settled current phase)
    (last : StepRun) (isLast : current = some last) :
    last.awaitsJob = true ∨ last.status.isTerminal = true := by
  cases status : last.status with
  | running => exact Or.inl (calm.awaits last isLast status)
  | passed | failed | skipped => exact Or.inr rfl

/-- An execution of a calm run begins steps and leaves all others as they are. -/
theorem Executed.outlasts {norm : Norm} {run : Run} {store after : Store} {settled : List StepRun}
    {current : Option StepRun} {phase : Phase} {resumeFrom : Option Int} {outcome : RunOutcome}
    (calm : Calm norm run store settled current phase)
    (executed : Executed norm run store settled current resumeFrom outcome after) :
    store.Outlasts after := by
  cases executed with
  | idle => exact .refl store
  | comes isOpen comes calmAfter =>
    have elsewhere := comes.standing.elsewhere
    rw [comes.keeps.id] at elsewhere
    refine ⟨fun id old held => ?_, fun id stepRun held => ?_, fun key known => ?_⟩
    · by_cases same : id = run.id
      · subst same
        rw [calm.standing.held] at held
        cases held
        have heldLater := comes.standing.held
        rw [comes.keeps.id] at heldLater
        refine ⟨_, heldLater, fun _ => comes.begun, fun closed => ?_⟩
        rw [isOpen] at closed
        cases closed
      · exact ⟨old, (elsewhere.runs id same).trans held, fun begun => begun, fun closed => closed⟩
    · refine ⟨stepRun, ?_, fun ended => ended, rfl⟩
      by_cases ofRun : stepRun.runId = run.id
      · have ownId := calm.standing.coherent.stepRunIds _ _ held
        subst ownId
        have member := calm.standing.coherent.mem_stepRunsOf.mpr ⟨held, ofRun⟩
        rw [calm.standing.begun] at member
        refine (comes.standing.mem ?_).1
        rcases List.mem_append.mp member with isSettled | isCurrent
        · exact List.mem_append_left _ (comes.advances.grows.subset isSettled)
        · have isLast := Option.mem_toList.mp isCurrent
          obtain ⟨sameSettled, sameLast⟩ := comes.advances.stays stepRun isLast
            (calm.rests stepRun isLast)
          rw [sameSettled, sameLast]
          exact member
      · exact (elsewhere.stepRuns id stepRun ofRun).mpr held
    · rw [elsewhere.receipts]
      exact known

/-! ### Stores in which nothing is left to do -/

/-- Each of our runs has not begun, waits for a job or is closed. -/
structure Restful (ours : Uuid → Prop) (store : Store) : Prop where
  coherent : store.Coherent
  writable : store.failingWrites = false
  calm : ∀ id run, ours id → store.runs.get? id = some run →
    ∃ settled current phase, Calm .free run store settled current phase ∧ phase ≠ .between

theorem Restful.moves {ours : Uuid → Prop} {store after : Store} (restful : Restful ours store)
    {run later : Run} (receipts : List String) (sameId : later.id = run.id)
    (elsewhere : Elsewhere run.id (store.withReceipts receipts) after) {settled : List StepRun}
    {current : Option StepRun} {phase : Phase} (calm : Calm .free later after settled current phase)
    (rests : phase ≠ .between) : Restful ours after where
  coherent := calm.standing.coherent
  writable := calm.standing.writable
  calm := by
    intro id other isOurs held
    by_cases same : id = run.id
    · have heldLater := calm.standing.held
      rw [same, ← sameId, heldLater] at held
      cases held
      exact ⟨settled, current, phase, calm, rests⟩
    · have heldBefore : store.runs.get? id = some other := (elsewhere.runs id same).symm.trans held
      obtain ⟨settledOther, currentOther, phaseOther, calmOther, restsOther⟩ :=
        restful.calm id other isOurs heldBefore
      have ownId := restful.coherent.runIds _ _ heldBefore
      refine ⟨settledOther, currentOther, phaseOther, ?_, restsOther⟩
      refine calmOther.of_elsewhere rfl elsewhere ?_ calm.standing.coherent calm.standing.writable
      rw [ownId]
      exact fun equal => same equal.symm

section Deliveries

variable {ours : Uuid → Prop} {mayAnswer : (request : Request) → request.Answer → Prop}
  {equipment : Equipment} {store after : Store} {log : EventLog} {clock : Nat}

structure Delivered (ours : Uuid → Prop) (store : Store) (delivery : Delivery) (after : Store) :
    Prop where
  restful : Restful ours after
  outlasts : store.Outlasts after
  spent : delivery.Spent after

/-- A delivery is about our runs. -/
def Delivery.Concerns (ours : Uuid → Prop) (store : Store) : Delivery → Prop
  | .execute runId | .cancel runId => ours runId
  | .complete stepRunId _ _ =>
    ∀ stepRun, store.stepRuns.get? stepRunId = some stepRun → ours stepRun.runId

theorem Restful.ensures_execute (restful : Restful ours store) (names : NamesJobs mayAnswer)
    {runId : Uuid} (isOurs : ours runId) :
    Ensures (.unwatched mayAnswer) ((Delivery.execute runId).perform equipment) ⟨store, log, clock⟩
      (fun _ after => Delivered ours store (.execute runId) after.store)
      fun _ after => after.store = store := by
  rw [Delivery.perform, Command.execute, ensures_bind, Command.ensures_ofJob]
  cases held : store.runs.get? runId with
  | none => exact ensures_execute_missing (fun _ _ => trivial) held fun _ _ => rfl
  | some run =>
    obtain rfl := restful.coherent.runIds _ _ held
    obtain ⟨settled, current, phase, calm, rests⟩ := restful.calm _ _ isOurs held
    refine (calm.ensures_execute (fun submission _ => Norm.sound_free names equipment run.id
      submission) none fun _ no => nomatch no).imp (fun outcome after executed => ?_)
      fun _ _ no => no.elim
    have outlasts := executed.outlasts calm
    change Delivered ours store (.execute run.id) after.store
    generalize after.store = final at executed outlasts ⊢
    cases executed with
    | idle stopped => exact ⟨restful, outlasts, run, held, stopped⟩
    | comes isOpen comes calmAfter =>
      have heldLater := comes.standing.held
      rw [comes.keeps.id] at heldLater
      have elsewhere := comes.standing.elsewhere
      rw [comes.keeps.id] at elsewhere
      exact ⟨restful.moves store.receipts comes.keeps.id elsewhere calmAfter comes.not_between,
        outlasts, _, heldLater, comes.begun⟩

theorem Restful.ensures_cancel (restful : Restful ours store) {runId : Uuid} (isOurs : ours runId) :
    Ensures (.unwatched mayAnswer) ((Delivery.cancel runId).perform equipment) ⟨store, log, clock⟩
      (fun _ after => Delivered ours store (.cancel runId) after.store)
      fun _ after => after.store = store := by
  rw [Delivery.perform, Command.cancel, ensures_bind, Command.ensures_ofJob]
  cases held : store.runs.get? runId with
  | none => exact ensures_cancel_missing (fun _ _ => trivial) held fun _ => rfl
  | some run =>
    obtain rfl := restful.coherent.runIds _ _ held
    obtain ⟨settled, current, phase, calm, rests⟩ := restful.calm _ _ isOurs held
    refine (Execution.ensures_cancel (fun _ _ => trivial) restful.writable held).imp
      (fun outcome after canceled => ?_) fun _ _ no => no.elim
    obtain ⟨later, next, keeps, standing, stage, same, closes⟩ :=
      canceled.turns calm.standing calm.stage calm.calm
    have heldLater := standing.held
    rw [keeps.id] at heldLater
    have elsewhere := standing.elsewhere
    rw [keeps.id] at elsewhere
    have closed := closes rests
    have stays : next.isCalm = true ∧ next ≠ .between := by
      rcases same with ⟨rfl, _⟩ | rfl
      · exact ⟨calm.calm, rests⟩
      · exact ⟨rfl, fun no => nomatch no⟩
    have calmAfter := calm.moves keeps standing stage stays.1 calm.awaits rfl fun running => by
      rw [running] at closed
      cases closed
    exact ⟨restful.moves store.receipts keeps.id elsewhere calmAfter stays.2,
      canceled.outlasts held, later, heldLater, closed⟩

/-- A callback delivers, or settles a step after which the run is to go on. -/
theorem Restful.answered (restful : Restful ours store) {stepRun : StepRun} {run : Run}
    {envelope : Envelope} {key? : Option String} {outcome : CallbackOutcome}
    (isOurs : ours stepRun.runId) (held : store.stepRuns.get? stepRun.id = some stepRun)
    (heldRun : store.runs.get? stepRun.runId = some run)
    (answered : Answered equipment store run stepRun envelope key? outcome after) :
    (outcome.resumeFrom = none ∧
      Delivered ours store (.complete stepRun.id envelope key?) after) ∨
    ∃ order settled, outcome.resumeFrom = some order ∧ outcome.result.runId = run.id ∧
      Calm .free run after settled none .between ∧ run.Covered settled order ∧
      Elsewhere run.id (store.withReceipts (receiptsWith store.receipts key?)) after ∧
      store.Outlasts after ∧ (Delivery.complete stepRun.id envelope key?).Spent after := by
  have sameId := restful.coherent.runIds _ _ heldRun
  obtain ⟨settled, current, phase, calm, rests⟩ := restful.calm _ _ isOurs heldRun
  cases answered with
  | refused isKey refuses resumes =>
    refine Or.inl ⟨resumes, restful, .refl store, stepRun, held, ?_⟩
    rw [isKey]
    exact refuses
  | taken admitted applied =>
    have received := calm.standing.withReceipts (receiptsWith store.receipts key?)
    have heldHere : (store.withReceipts (receiptsWith store.receipts key?)).stepRuns.get? stepRun.id =
        some stepRun := held
    obtain ⟨applies, ended, heldEnded, terminal⟩ := applied.outlasts heldHere received.held
    have outlasts := (Store.Outlasts.withReceipts store key?).trans applies
    have spent : (Delivery.complete stepRun.id envelope key?).Spent after := by
      refine ⟨ended, heldEnded, ?_⟩
      cases key? with
      | none => exact terminal
      | some key => exact Or.inr (applies.receipts key List.mem_cons_self)
    have turns := applied.turns received calm.ordered (calm.stage.withReceipts _) calm.calm held
      sameId.symm fun step _ _ => Norm.takes_free equipment run envelope step
    obtain ⟨elsewhere, ⟨resumes, later, last, next, keeps, calmAfter, same⟩ |
      ⟨order, ended, resumes, waited, calmAfter, covered⟩⟩ := turns.calm calm rfl
    · refine Or.inl ⟨resumes, restful.moves _ keeps.id elsewhere calmAfter ?_, outlasts, spent⟩
      rcases same with ⟨rfl, _⟩ | rfl
      · exact rests
      · exact fun no => nomatch no
    · exact Or.inr ⟨order, settled ++ [ended], resumes, (applied.runId resumes).trans sameId.symm,
        calmAfter, covered, elsewhere, outlasts, spent⟩

/-- A run that goes on after a callback comes to rest. -/
theorem Restful.resumed (restful : Restful ours store) {delivery : Delivery} {run : Run}
    {receipts : List String} {settled : List StepRun} {middle : Store} {order : Int}
    {outcome : RunOutcome} (between : Calm .free run middle settled none .between)
    (elsewhere : Elsewhere run.id (store.withReceipts receipts) middle)
    (outlasts : store.Outlasts middle) (spent : delivery.Spent middle)
    (executed : Executed .free run middle settled none (some order) outcome after) :
    Delivered ours store delivery after := by
  have goesOn := executed.outlasts between
  cases executed with
  | idle stopped =>
    cases between.stage with
    | between status => exact absurd status stopped
  | comes isOpen comes calmAfter =>
    have further := comes.standing.elsewhere
    rw [comes.keeps.id] at further
    exact ⟨restful.moves receipts comes.keeps.id (elsewhere.trans further) calmAfter
      comes.not_between, outlasts.trans goesOn, goesOn.spent spent⟩

theorem Restful.ensures_complete (restful : Restful ours store) (names : NamesJobs mayAnswer)
    {stepRunId : Uuid} {envelope : Envelope} {key? : Option String}
    (concerns : (Delivery.complete stepRunId envelope key?).Concerns ours store) :
    Ensures (.unwatched mayAnswer)
      ((Delivery.complete stepRunId envelope key?).perform equipment) ⟨store, log, clock⟩
      (fun _ after => Delivered ours store (.complete stepRunId envelope key?) after.store)
      fun _ after => after.store = store := by
  rw [Delivery.perform, Command.complete, ensures_bind, Command.ensures_ofJob]
  cases held : store.stepRuns.get? stepRunId with
  | none => exact ensures_completeCallback_missing (fun _ _ => trivial) held key? fun _ => rfl
  | some stepRun =>
    have isOurs := concerns stepRun held
    obtain rfl := restful.coherent.stepRunIds _ _ held
    obtain ⟨run, heldRun⟩ := restful.coherent.rooted _ _ held
    have sameId := restful.coherent.runIds _ _ heldRun
    obtain ⟨settled, current, phase, calm, rests⟩ := restful.calm _ _ isOurs heldRun
    refine (ensures_completeCallback (fun _ _ => trivial) restful.writable held rfl heldRun sameId
      key?).imp (fun outcome after answered => ?_) fun _ _ no => no.elim
    rcases restful.answered isOurs held heldRun answered with ⟨resumes, delivered⟩ |
      ⟨order, reached, resumes, ofRun, calmBetween, covered, elsewhere, outlasts, spent⟩
    · rw [resumes]
      exact delivered
    · rw [resumes, ofRun]
      refine (ensures_bind _ _).mpr ((ensures_map _ _).mpr ((Command.ensures_ofJob _).mpr ?_))
      refine (calmBetween.ensures_execute (fun submission _ => Norm.sound_free names equipment run.id
        submission) (some order) ?_).imp (fun outcome final executed => ?_) fun _ _ no => no.elim
      · rintro _ ⟨⟩
        exact covered
      · exact restful.resumed calmBetween elsewhere outlasts spent executed

theorem Restful.ensures_perform (restful : Restful ours store) (names : NamesJobs mayAnswer)
    {delivery : Delivery} (concerns : delivery.Concerns ours store) :
    Ensures (.unwatched mayAnswer) (delivery.perform equipment) ⟨store, log, clock⟩
      (fun _ after => Delivered ours store delivery after.store)
      fun _ after => after.store = store := by
  cases delivery with
  | execute runId => exact restful.ensures_execute names concerns
  | complete stepRunId envelope key? => exact restful.ensures_complete names concerns
  | cancel runId => exact restful.ensures_cancel concerns

/-! ### One delivery after the other -/

/-- A store in which none of our runs has begun. -/
structure Store.Untouched (ours : Uuid → Prop) (store : Store) : Prop where
  coherent : store.Coherent
  writable : store.failingWrites = false
  fresh : ∀ id run, ours id → store.runs.get? id = some run →
    run.WellOrdered ∧ run.status = .pending ∧ store.stepRunsOf id = []

theorem Store.Untouched.restful (untouched : store.Untouched ours) : Restful ours store where
  coherent := untouched.coherent
  writable := untouched.writable
  calm := by
    intro id run isOurs held
    obtain ⟨ordered, pending, unbegun⟩ := untouched.fresh id run isOurs held
    obtain rfl := untouched.coherent.runIds _ _ held
    exact ⟨[], none, .fresh, .fresh ordered untouched.coherent untouched.writable held pending
      unbegun rfl, fun no => nomatch no⟩

/-- Deliveries that are made one after the other, with those that have succeeded. -/
inductive Deliveries (ours : Uuid → Prop)
    (mayAnswer : (request : Request) → request.Answer → Prop) (equipment : Equipment)
    (origin : World) : List Delivery → World → Prop
  | start : Deliveries ours mayAnswer equipment origin [] origin
  | succeeded {done : List Delivery} {world after : World} {delivery : Delivery}
      {requests : List Request} {report : Command.Report}
      (earlier : Deliveries ours mayAnswer equipment origin done world)
      (concerns : delivery.Concerns ours world.store)
      (runs : (delivery.perform equipment).run.Runs mayAnswer world requests (some (.ok report))
        after) :
    Deliveries ours mayAnswer equipment origin (delivery :: done) after
  | failed {done : List Delivery} {world after : World} {delivery : Delivery}
      {requests : List Request} {failure : Command.Failure}
      (earlier : Deliveries ours mayAnswer equipment origin done world)
      (concerns : delivery.Concerns ours world.store)
      (runs : (delivery.perform equipment).run.Runs mayAnswer world requests
        (some (.error failure)) after) :
    Deliveries ours mayAnswer equipment origin done after

variable {origin world : World} {done : List Delivery}

theorem spent_of_deliveries (names : NamesJobs mayAnswer)
    (untouched : origin.store.Untouched ours)
    (history : Deliveries ours mayAnswer equipment origin done world) :
    Restful ours world.store ∧ ∀ delivery ∈ done, delivery.Spent world.store := by
  induction history with
  | start => exact ⟨untouched.restful, fun _ member => nomatch member⟩
  | succeeded earlier concerns runs inductionHypothesis =>
    obtain ⟨restful, spent⟩ := inductionHypothesis
    have delivered : Delivered ours _ _ _ :=
      runs.reaches (restful.ensures_perform names concerns)
    refine ⟨delivered.restful, fun delivery member => ?_⟩
    rcases List.mem_cons.mp member with rfl | before
    · exact delivered.spent
    · exact delivered.outlasts.spent (spent delivery before)
  | @failed _ world after _ _ _ earlier concerns runs inductionHypothesis =>
    obtain ⟨restful, spent⟩ := inductionHypothesis
    have same : after.store = world.store :=
      runs.reaches (restful.ensures_perform names concerns)
    rw [same]
    exact ⟨restful, spent⟩

/-- A delivery that has succeeded once changes nothing when it is made again at any later time, calls
neither a plug-in nor the backend, and succeeds again. -/
theorem redelivery_does_nothing (names : NamesJobs mayAnswer)
    (untouched : origin.store.Untouched ours)
    (history : Deliveries ours mayAnswer equipment origin done world) {delivery : Delivery}
    (made : delivery ∈ done) {requests : List Request}
    {result : Except Command.Failure Command.Report} {after : World}
    (again : (delivery.perform equipment).run.Runs mayAnswer world requests (some result) after) :
    after.store = world.store ∧ (∀ request ∈ requests, request.isOutside = false) ∧
      ∃ report, result = .ok report := by
  obtain ⟨restful, spent⟩ := spent_of_deliveries names untouched history
  have ensures : Ensures ⟨mayAnswer, fun _ request => request.isOutside = false⟩
      (delivery.perform equipment) world (fun _ after => after.store = world.store)
      fun _ _ => False :=
    delivery.ensures_perform_spent (fun _ _ inside => inside) restful.coherent (spent delivery made)
  have reached := again.reaches ensures
  have watched := again.watched ensures
  refine ⟨?_, fun request member => (watched request member).choose_spec, ?_⟩
  · cases result with
    | ok report => exact reached
    | error failure => exact reached.elim
  · cases result with
    | ok report => exact ⟨report, rfl⟩
    | error failure => exact reached.elim

end Deliveries

/-! ### An order that comes again after a run has been cancelled -/

namespace Example

def deliver (delivery : Delivery) (world : World) : Except Command.Failure Command.Report × World :=
  ((delivery.perform equipment).run.run (World.answer (surroundings accepted))).run world

theorem runs_deliver (delivery : Delivery) (world : World) : ∃ requests,
    (delivery.perform equipment).run.Runs (surroundings accepted).answers world requests
      (some (deliver delivery world).1) (deliver delivery world).2 :=
  World.runs_run (surroundings accepted) (delivery.perform equipment).run world

theorem untouched_store : store.Untouched fun id => id = run.id where
  coherent := coherent_store
  writable := rfl
  fresh := by
    rintro id held rfl found
    obtain rfl : run = held := Option.some.inj found
    exact ⟨Run.wellOrdered_fresh distinct_steps _ _ _ _, rfl, unbegun_store.stepRuns⟩

/-- The order succeeds when it comes first. -/
theorem execute_succeeds : ∃ report, (deliver (.execute run.id) world).1 = .ok report := by
  have calm : Calm .free run store [] none .fresh :=
    .fresh (Run.wellOrdered_fresh distinct_steps _ _ _ _) coherent_store rfl rfl rfl
      unbegun_store.stepRuns rfl
  have ensures : Ensures (.unwatched (surroundings accepted).answers)
      ((Delivery.execute run.id).perform equipment) world (fun _ _ => True) fun _ _ => False := by
    rw [Delivery.perform, Command.execute, ensures_bind, Command.ensures_ofJob]
    exact (calm.ensures_execute (fun submission _ =>
      Norm.sound_free names_accepted equipment run.id submission) none fun _ no => nomatch no).imp
      (fun _ _ _ => trivial) fun _ _ no => no
  obtain ⟨requests, runs⟩ := runs_deliver (.execute run.id) world
  obtain ⟨report, isOk, _⟩ := runs.succeeds ensures
  exact ⟨report, isOk⟩

/-- The order comes again after the run has been cancelled. -/
theorem redelivered_execute :
    (deliver (.execute run.id) (deliver (.cancel run.id)
      (deliver (.execute run.id) world).2).2).2.store =
      (deliver (.cancel run.id) (deliver (.execute run.id) world).2).2.store := by
  obtain ⟨report, isOk⟩ := execute_succeeds
  obtain ⟨_, executes⟩ := runs_deliver (.execute run.id) world
  obtain ⟨_, cancels⟩ := runs_deliver (.cancel run.id) (deliver (.execute run.id) world).2
  obtain ⟨_, again⟩ := runs_deliver (.execute run.id)
    (deliver (.cancel run.id) (deliver (.execute run.id) world).2).2
  rw [isOk] at executes
  have first : Deliveries (fun id => id = run.id) (surroundings accepted).answers equipment world
      [.execute run.id] (deliver (.execute run.id) world).2 := .succeeded .start rfl executes
  have concerns : (Delivery.cancel run.id).Concerns (fun id => id = run.id)
      (deliver (.execute run.id) world).2.store := rfl
  cases isResult : (deliver (.cancel run.id) (deliver (.execute run.id) world).2).1 with
  | ok report =>
    rw [isResult] at cancels
    exact (redelivery_does_nothing names_accepted untouched_store (first.succeeded concerns cancels)
      (by simp) again).1
  | error failure =>
    rw [isResult] at cancels
    exact (redelivery_does_nothing names_accepted untouched_store (first.failed concerns cancels)
      (by simp) again).1

end Example

end Vetting
