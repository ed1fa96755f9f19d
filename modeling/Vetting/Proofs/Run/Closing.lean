import Vetting.Proofs.Step.Record
import Vetting.Proofs.Store.Elsewhere

/-!
Contract: what becomes of the record of a run.

Owns:
- `Run.Keeps` and `Run.Closes`: records of one run before and after;
- `Store.Sums` and `Store.SummedUp`: a run has the summary of what is stored;
- how a store answers requests about a run that it holds;
- closing a run, storing its summary, and making its last step fail.

Does not own: which steps have been taken by then (`Vetting.Proofs.Run.Driving`).
-/

namespace Vetting

namespace Run

/-- A later record of a run is about the same steps and submission, and the run has begun if it had
before. -/
structure Keeps (run later : Run) : Prop where
  id : later.id = run.id
  steps : later.steps = run.steps
  submissionId : later.submissionId = run.submissionId
  begun : later.status = .pending → run.status = .pending

theorem Keeps.refl (run : Run) : run.Keeps run := ⟨rfl, rfl, rfl, fun pending => pending⟩

theorem Keeps.trans {first second third : Run} (left : first.Keeps second)
    (right : second.Keeps third) : first.Keeps third :=
  ⟨right.id.trans left.id, right.steps.trans left.steps,
    right.submissionId.trans left.submissionId, left.begun ∘ right.begun⟩

def summarized (run : Run) (summary : RunSummary) : Run := { run with summary? := some summary }

theorem keeps_summarized (run : Run) (summary : RunSummary) : run.Keeps (run.summarized summary) :=
  ⟨rfl, rfl, rfl, fun pending => pending⟩

def flagged (run : Run) : Run := { run with cancelRequested := true }

theorem keeps_flagged (run : Run) : run.Keeps run.flagged := ⟨rfl, rfl, rfl, fun pending => pending⟩

/-- A later record of a run tells that it is closed. -/
structure Closes (run : Run) (status : RunStatus) (error : Option String) (later : Run) : Prop
    extends run.Keeps later where
  status : later.status = status
  error : later.error = error
  cancelRequested : later.cancelRequested = run.cancelRequested

end Run

namespace Store

variable {store : Store} {id : Uuid} {run : Run}

/-- A run has the summary of what is stored, whenever that has been made. -/
def Sums (store : Store) (run : Run) : Prop :=
  ∃ now, run.summary? =
    some (Execution.summaryOf run (store.stepRunsOf run.id) (store.findingsOfRun run.id) now)

/-- If a run is closed, it has the summary of what is stored. -/
def SummedUp (store : Store) (runId : Uuid) : Prop :=
  ∀ run, store.runs.get? runId = some run → run.status.isTerminal = true → store.Sums run

theorem summedUp_of_open (held : store.runs.get? id = some run)
    (isOpen : run.status.isTerminal = false) : store.SummedUp id := by
  intro other heldOther closed
  obtain rfl := Option.some.inj (held.symm.trans heldOther)
  rw [isOpen] at closed
  cases closed

/-- Giving a run another record changes nothing that its summary is made of. -/
theorem summedUp_withRun (sums : store.Sums run) : (store.withRun run).SummedUp run.id := by
  intro other heldOther _
  obtain rfl := Option.some.inj ((store.withRun_get? run).symm.trans heldOther)
  exact sums

theorem answer_run (held : store.runs.get? id = some run) :
    store.answer (.run id) = (.ok run, store) := by
  rw [answer, Store.run, held]

theorem answer_cancelFlag (held : store.runs.get? id = some run) :
    store.answer (.cancelFlag id) = (.ok run.cancelRequested, store) := by
  rw [answer, Store.run, held]
  rfl

/-- Changing the record of a run answers whether there was something to change. -/
private theorem changed_of_held {change : Run → Option Run} {result : Except EngineFault Bool × Store}
    (opened : result = match store.runs.get? id with
      | none => (.error (.runNotFound id), store)
      | some run => match change run with
        | none => (.ok false, store)
        | some changed => (.ok true, { store with runs := store.runs.set id changed }))
    (held : store.runs.get? id = some run) :
    result = match change run with
      | none => (.ok false, store)
      | some changed => (.ok true, { store with runs := store.runs.set id changed }) := by
  rw [opened, held]

/-- A request to change the record of a run leaves the store as it is, or the change is made. -/
theorem changed_cases {change : Run → Option Run} {result : Except EngineFault Bool × Store}
    (opened : result = match store.runs.get? id with
      | none => (.error (.runNotFound id), store)
      | some run => match change run with
        | none => (.ok false, store)
        | some changed => (.ok true, { store with runs := store.runs.set id changed })) :
    (result.2 = store ∧ result.1 ≠ .ok true) ∨ ∃ run changed,
      store.runs.get? id = some run ∧ change run = some changed ∧
        result = (.ok true, { store with runs := store.runs.set id changed }) := by
  subst opened
  cases held : store.runs.get? id with
  | none => exact Or.inl ⟨rfl, by rintro ⟨⟩⟩
  | some run =>
    cases made : change run with
    | none =>
      apply Or.inl
      simp [made]
    | some changed =>
      apply Or.inr
      exact ⟨run, changed, rfl, made, by simp only [made]⟩

theorem answer_run_missing (missing : store.runs.get? id = none) :
    store.answer (.run id) = (.error (.runNotFound id), store) := by
  rw [answer, Store.run, missing]

theorem answer_startRun_missing (missing : store.runs.get? id = none) (now : Timestamp) :
    store.answer (.startRun id now) = (.error (.runNotFound id), store) := by
  have opened : store.answer (.startRun id now) = match store.runs.get? id with
      | none => (.error (.runNotFound id), store)
      | some run =>
        match if run.status = .pending then
            some { run with status := .running, startedAt := some now }
          else none with
        | none => (.ok false, store)
        | some changed => (.ok true, { store with runs := store.runs.set id changed }) := rfl
  rw [opened, missing]

theorem answer_startRun (held : store.runs.get? run.id = some run) (now : Timestamp) :
    store.answer (.startRun run.id now) =
      if run.status = .pending then
        (.ok true, store.withRun { run with status := .running, startedAt := some now })
      else (.ok false, store) := by
  refine (changed_of_held rfl held).trans ?_
  by_cases pending : run.status = .pending
  · rw [if_pos pending, if_pos pending]
    rfl
  · rw [if_neg pending, if_neg pending]

theorem answer_closeRun (held : store.runs.get? run.id = some run)
    (writable : store.failingWrites = false) (isOpen : run.status.isTerminal = false)
    (status : RunStatus) (error : Option String) (now : Timestamp) :
    store.answer (.closeRun run.id status error now) =
      (.ok true, store.withRun { run with status, error, endedAt := some now }) := by
  rw [answer, closeRun, if_neg (by simp [writable])]
  refine (changed_of_held rfl held).trans ?_
  rw [if_neg (by simp [isOpen])]
  rfl

/-- A change that is always made is answered without saying so. -/
private theorem done_of_held (change : Run → Run) {result : Except EngineFault Bool × Store}
    (opened : result = match store.runs.get? id with
      | none => (.error (.runNotFound id), store)
      | some run => (.ok true, { store with runs := store.runs.set id (change run) }))
    (held : store.runs.get? id = some run) :
    (result.1.map fun _ => (), result.2) =
      (.ok (), { store with runs := store.runs.set id (change run) }) := by
  rw [opened, held]
  rfl

theorem answer_saveSummary (held : store.runs.get? run.id = some run) (summary : RunSummary) :
    store.answer (.saveSummary run.id summary) =
      (.ok (), store.withRun (run.summarized summary)) :=
  done_of_held (fun run => run.summarized summary) rfl held

theorem answer_flagCancel (held : store.runs.get? run.id = some run) :
    store.answer (.flagCancel run.id) =
      (.ok (), store.withRun run.flagged) :=
  done_of_held Run.flagged rfl held

end Store

namespace Execution

open Store (Ends)

variable {regime : Regime} {allowed : Store → Prop} {world : World} {store : Store} {log : EventLog}
  {clock : Nat} {run : Run} {bad : EngineFault → World → Prop}

/-- Storing the summary of a run gives it a record with the summary of what is stored, and does nothing
else. -/
theorem ensures_storeSummary (watches : ∀ world request, allowed world.store →
      regime.watch world request)
    {id : Uuid} (held : store.runs.get? id = some run) (sameId : run.id = id)
    (here : allowed store) {good : RunSummary → World → Prop}
    (reached : ∀ summary, store.Sums (run.summarized summary) → ∀ log clock,
      good summary ⟨store.withRun (run.summarized summary), log, clock⟩) :
    Ensures regime (storeSummary id) ⟨store, log, clock⟩ good bad := by
  subst sameId
  simp only [storeSummary, buildSummary, ensures_bind]
  refine (ensures_ask (Store.answer_run held)).mpr ⟨watches _ _ here, ?_⟩
  refine (ensures_ask rfl).mpr ⟨watches _ _ here, ?_⟩
  refine (ensures_ask rfl).mpr ⟨watches _ _ here, ?_⟩
  rw [ensures_now]
  refine ⟨watches _ _ here, fun stamp clock => ?_⟩
  rw [ensures_pure]
  exact (ensures_ask (Store.answer_saveSummary held _)).mpr
    ⟨watches _ _ here, reached _ ⟨stamp.time, rfl⟩ _ _⟩

theorem ensures_currentOutcome (watches : ∀ world request, allowed world.store →
      regime.watch world request)
    {id : Uuid} (held : store.runs.get? id = some run) (here : allowed store)
    {good : RunOutcome → World → Prop} (reached : good (.ofRun run) ⟨store, log, clock⟩) :
    Ensures regime (currentOutcome id) ⟨store, log, clock⟩ good bad := by
  refine (ensures_bind _ _).mpr ((ensures_ask (Store.answer_run held)).mpr ⟨watches _ _ here, ?_⟩)
  exact reached

/-- Closing an open run gives it a closed record with the summary of what is stored, and does nothing
else. -/
theorem ensures_closeRun (watches : ∀ world request, allowed world.store →
      regime.watch world request)
    (held : store.runs.get? run.id = some run) (here : allowed store)
    (writable : store.failingWrites = false) (isOpen : run.status.isTerminal = false)
    {status : RunStatus} (begun : status ≠ .pending) {error : Option String} {good : RunOutcome → World → Prop}
    (reached : ∀ closed, run.Closes status error closed →
      allowed (store.withRun closed) ∧
      (store.Sums closed → ∀ log clock,
        good (.ofRun closed) ⟨store.withRun closed, log, clock⟩)) :
    Ensures regime (closeRun run.id status error) ⟨store, log, clock⟩ good bad := by
  simp only [closeRun, ensures_bind, ensures_now]
  refine ⟨watches _ _ here, fun stamp clock => ?_⟩
  obtain ⟨closed, isClosed⟩ : ∃ closed,
      closed = { run with status, error, endedAt := some stamp.time } := ⟨_, rfl⟩
  have closes : run.Closes status error closed := by
    rw [isClosed]
    exact ⟨⟨rfl, rfl, rfl, fun pending => absurd pending begun⟩, rfl, rfl, rfl⟩
  have answered := Store.answer_closeRun held writable isOpen status error stamp.time
  rw [← isClosed] at answered
  refine (ensures_ask answered).mpr ⟨watches _ _ here, ?_⟩
  have isAllowed := (reached closed closes).1
  simp only [if_true, ensures_bind, ensures_log]
  refine ⟨watches _ _ isAllowed, fun time => ?_⟩
  have heldClosed := store.withRun_get? closed
  rw [closes.id] at heldClosed
  apply ensures_storeSummary watches heldClosed closes.id isAllowed
  intro summary sums log clock
  have closesToo : run.Closes status error (closed.summarized summary) :=
    ⟨closes.toKeeps.trans (closed.keeps_summarized summary), closes.status, closes.error,
      closes.cancelRequested⟩
  have heldSummarized := store.withRun_get? (closed.summarized summary)
  rw [closesToo.id] at heldSummarized
  rw [Store.withRun_withRun _ (closed.keeps_summarized summary).id]
  exact ensures_currentOutcome watches heldSummarized (reached _ closesToo).1
    ((reached _ closesToo).2 sums _ _)

/-! ### Unexpected faults -/

/-- A step at work fails with an unexpected fault. -/
theorem ensures_failStep {stepRun : StepRun} (work : AtWork regime allowed world.store stepRun)
    (running : stepRun.status = .running) (fault : EngineFault) {good : Unit → World → Prop}
    (reached : ∀ ended after,
      Ends world.store stepRun
        (.unexpected (world.store.issuesOf stepRun.id) fault stepRun.output) ended after.store →
      allowed after.store ∧ good () after) :
    Ensures regime (failStep stepRun fault) world good bad := by
  simp only [failStep, ensures_bind]
  refine (ensures_ask (Store.answer_stepRun work.held)).mpr ⟨work.watch _, ?_⟩
  have goesOn : (!stepRun.status.isTerminal) = true := by
    rw [running]
    rfl
  rw [goesOn]
  simp only [if_true, ensures_bind]
  apply ensures_failWithIssue work.present running _ _ fun _ _ _ => work.stays _ _
  intro ended after ends
  exact reached ended after ends

end Execution

end Vetting
