import Vetting.Proofs.Run.Setback
import Vetting.Proofs.Run.Turns

/-!
Contract: what the error of a run tells of a fault that a step has brought up.

Owns:
- `Breakdown`: an execution whose work is broken off by a fault while a step is at work;
- `Retried`: executions of a run one after the other, each of which may be refused anything by
  the store and cut short anywhere;
- `Aftermath`: how a run may stand while such an execution deals with the fault;
- that the details stay out of the run, whatever is tried later, exactly if this execution has
  still closed the run.

Does not own: what has been taken of the run by then (`Vetting.Proofs.Run.Setback`).

The step fails before the run is closed.  If the run cannot be closed then, the next execution
finds the step failed and closes the run with the error of the step.
-/

namespace Vetting

open Execution
open Store (Serves Yields Attains Behind Has)

private theorem prefixed_ne_generic (start detail : String) (first : Char)
    (begins : start.toList.head? = some first) (other : first ≠ 'V') :
    start ++ detail ≠ genericFailure := by
  have generic : genericFailure.toList.head? = some 'V' := by simp [genericFailure]
  intro same
  have heads : (start ++ detail).toList.head? = some 'V' := by rw [same, generic]
  rw [String.toList_append, List.head?_append, begins] at heads
  exact other (Option.some.inj heads)

/-- The details of a fault are never the words with which a run is closed after one. -/
theorem EngineFault.message_ne_generic (fault : EngineFault) : fault.message ≠ genericFailure := by
  cases fault with
  | configuration =>
    exact prefixed_ne_generic "configuration error: " _ 'c' (by simp) (by decide)
  | execution => exact prefixed_ne_generic "execution error: " _ 'e' (by simp) (by decide)
  | assertionEvaluation =>
    exact prefixed_ne_generic "assertion evaluation error: " _ 'a' (by simp) (by decide)
  | evaluatorUnavailable =>
    exact prefixed_ne_generic "expression evaluator unavailable: " _ 'e' (by simp) (by decide)
  | invalidTransition source target =>
    have split := prefixed_ne_generic "invalid status transition: "
      (source ++ (" -> " ++ target)) 'i' (by simp) (by decide)
    rw [← String.append_assoc, ← String.append_assoc] at split
    exact split
  | runNotFound => exact prefixed_ne_generic "run not found: " _ 'r' (by simp) (by decide)
  | stepRunNotFound => exact prefixed_ne_generic "step run not found: " _ 's' (by simp) (by decide)
  | submissionNotFound =>
    exact prefixed_ne_generic "submission not found: " _ 's' (by simp) (by decide)
  | storage => exact prefixed_ne_generic "storage error: " _ 's' (by simp) (by decide)
  | internal => exact prefixed_ne_generic "internal: " _ 'i' (by simp) (by decide)

/-- A run has been closed with a status and an error, and nothing else has changed. -/
def Store.Shuts (before : Store) (runId : Uuid) (status : RunStatus) (error : Option String)
    (after : Store) : Prop :=
  ∃ closed : Run, closed.id = runId ∧ closed.status = status ∧ closed.error = error ∧
    after = before.withRun closed

theorem Store.Shuts.held {before after : Store} {runId : Uuid} {status : RunStatus}
    {error : Option String} (shuts : before.Shuts runId status error after) :
    ∃ closed : Run, closed.id = runId ∧ closed.status = status ∧ closed.error = error ∧
      after.runs.get? runId = some closed := by
  obtain ⟨closed, rfl, isStatus, isError, rfl⟩ := shuts
  exact ⟨closed, rfl, isStatus, isError, before.withRun_get? closed⟩

namespace Execution

/-! ### Closing the run -/

section Closing

variable {mayAnswer : (request : Request) → request.Answer → Prop} {refuses : Prop}
  {watch : Store → Request → Prop} {store : Store} {run : Run}

theorem falters_storeSummary (held : store.runs.get? run.id = some run)
    (here : ∀ request, request.isOutside = false → watch store request) :
    Heeds (faltering mayAnswer refuses watch) (storeSummary run.id) store
      (fun _ after => ∃ summary, after = store.withRun (run.summarized summary))
      fun _ after => refuses ∧ after = store := by
  have refused : ∀ fault : EngineFault, refuses → refuses ∧ store = store :=
    fun _ refuses => ⟨refuses, rfl⟩
  refine (heeds_bind _ _).mpr ((heeds_bind _ _).mpr (falters_ask (here _ rfl)
    (Store.answer_run held) ?_ refused))
  refine (heeds_bind _ _).mpr (falters_ask (here _ rfl) rfl ?_ refused)
  refine (heeds_bind _ _).mpr (falters_ask (here _ rfl) rfl ?_ refused)
  refine (heeds_bind _ _).mpr (falters_now (here _ rfl) fun now => ?_)
  exact (heeds_bind _ _).mpr (falters_ask (here _ rfl) (Store.answer_saveSummary held _)
    ⟨_, rfl⟩ refused)

theorem falters_currentOutcome (held : store.runs.get? run.id = some run)
    (here : ∀ request, request.isOutside = false → watch store request) :
    Heeds (faltering mayAnswer refuses watch) (currentOutcome run.id) store
      (fun _ after => after = store) fun _ after => refuses ∧ after = store :=
  (heeds_bind _ _).mpr (falters_ask (here _ rfl) (Store.answer_run held) rfl
    fun _ refuses => ⟨refuses, rfl⟩)

/-- Closing an open run is refused, or the run is closed. -/
theorem falters_closeRun (held : store.runs.get? run.id = some run)
    (writable : store.failingWrites = false) (isOpen : run.status.isTerminal = false)
    (status : RunStatus) (error : Option String)
    (here : ∀ request, request.isOutside = false → watch store request)
    (closes : ∀ after request, store.Shuts run.id status error after →
      request.isOutside = false → watch after request) :
    Heeds (faltering mayAnswer refuses watch) (closeRun run.id status error) store
      (fun _ => store.Shuts run.id status error)
      fun _ after => refuses ∧ (after = store ∨ store.Shuts run.id status error after) := by
  refine (heeds_bind _ _).mpr (falters_now (here _ rfl) fun now => (heeds_bind _ _).mpr ?_)
  refine falters_ask (here _ rfl) (Store.answer_closeRun held writable isOpen status error now) ?_
    fun _ refuses => ⟨refuses, Or.inl rfl⟩
  let closed : Run := { run with status, error, endedAt := some now }
  have shuts : ∀ later : Run, later.id = run.id → later.status = status → later.error = error →
      store.Shuts run.id status error (store.withRun later) :=
    fun later sameId isStatus isError => ⟨later, sameId, isStatus, isError, rfl⟩
  have heldClosed : (store.withRun closed).runs.get? closed.id = some closed :=
    store.withRun_get? closed
  have shut := shuts closed rfl rfl rfl
  refine (heeds_bind _ _).mpr (falters_log (closes _ _ shut rfl) ((heeds_bind _ _).mpr ?_))
  refine (falters_storeSummary heldClosed fun request => closes _ request shut).imp ?_ ?_
  · rintro _ _ ⟨summary, rfl⟩
    rw [Store.withRun_withRun _ (show (closed.summarized summary).id = closed.id from rfl)]
    have shut := shuts (closed.summarized summary) rfl rfl rfl
    have heldLater := store.withRun_get? (closed.summarized summary)
    refine (falters_currentOutcome heldLater fun request => closes _ request shut).imp ?_ ?_
    · rintro _ _ rfl
      exact shut
    · rintro _ _ ⟨refuses, rfl⟩
      exact ⟨refuses, Or.inr shut⟩
  · rintro _ _ ⟨refuses, rfl⟩
    exact ⟨refuses, Or.inr shut⟩

end Closing

/-! ### Dealing with a fault -/

/-- How a run stands while a fault is dealt with that has come up in a step: it is open and the step
still runs or has failed with the details, or it is closed without them. -/
inductive Aftermath (run : Run) (start : Int) (stepRun : StepRun) (fault : EngineFault)
    (after : Store) : Prop
  | left {record : StepRun} (sameId : record.id = stepRun.id)
      (told : record.status = .running ∨
        record.status = .failed ∧ record.error = some fault.message)
      (attains : after.Attains run start record)
  | closed {closed : Run} (sameId : closed.id = run.id)
      (held : after.runs.get? run.id = some closed) (failed : closed.status = .failed)
      (generic : closed.error = some genericFailure)

section Failing

variable {mayAnswer : (request : Request) → request.Answer → Prop} {store : Store} {run : Run}
  {start : Int} {stepRun record : StepRun}

/-- As far as dealing with the fault gets, it has this aftermath. -/
theorem falters_failRun (attains : store.Attains run start record)
    (sameId : record.id = stepRun.id) (running : record.status = .running)
    (isOpen : run.status = .running) (fault : EngineFault) :
    Heeds (faltering mayAnswer True fun after _ => Aftermath run start stepRun fault after)
      (failRun run.id ⟨fault, some stepRun⟩) store
      (fun _ => Aftermath run start stepRun fault) fun _ => Aftermath run start stepRun fault := by
  have closes : ∀ {middle : Store} {later : StepRun}, later.id = stepRun.id →
      (later.status = .running ∨ later.status = .failed ∧ later.error = some fault.message) →
      middle.Attains run start later →
      Heeds (faltering mayAnswer True fun after _ => Aftermath run start stepRun fault after)
        (closeRun run.id .failed (some genericFailure)) middle
        (fun _ => Aftermath run start stepRun fault)
        fun _ => Aftermath run start stepRun fault := by
    intro middle later sameId told attains
    have notClosed : run.status.isTerminal = false := by
      rw [isOpen]
      rfl
    have shut : ∀ after, middle.Shuts run.id .failed (some genericFailure) after →
        Aftermath run start stepRun fault after := by
      intro after shuts
      obtain ⟨closed, sameRun, failed, generic, held⟩ := shuts.held
      exact .closed sameRun held failed generic
    refine (falters_closeRun attains.serves.held attains.serves.writable notClosed _ _
      (fun _ _ => .left sameId told attains) (fun after _ shuts _ => shut after shuts)).imp
      (fun _ after => shut after) ?_
    rintro _ after ⟨_, rfl | shuts⟩
    · exact .left sameId told attains
    · exact shut after shuts
  have held : store.stepRuns.get? stepRun.id = some record := sameId ▸ attains.held
  have goesOn : record.status.isTerminal = false := by
    rw [running]
    rfl
  have attended : Attended (fun after _ => Aftermath run start stepRun fault after)
      (fun later => later.status = .running ∨
        later.status = .failed ∧ later.error = some fault.message) store record := {
    steady := attains.serves.writable
    running
    leaves := fun _ => Or.inl running
    watches := fun later after _ yields told =>
      .left (yields.id.trans sameId) told (attains.yields running yields) }
  have inHand := Store.inHand_of_held attains.held
  refine (heeds_bind _ _).mpr ((heeds_tryCatch _ _).mpr ((heeds_bind _ _).mpr
    (falters_ask (.left sameId (Or.inl running) attains) (Store.answer_stepRun held) ?_
      fun _ _ => closes sameId (Or.inl running) attains)))
  rw [goesOn]
  refine (heeds_bind _ _).mpr ((falters_failWithIssue attended inHand record.output
    (.error "unexpected_error" fault.message) record.output
    fun _ _ => Or.inr ⟨rfl, rfl⟩).imp ?_ ?_)
  · rintro _ middle ⟨output, now, rfl, yields⟩
    exact closes (yields.id.trans sameId) (Or.inr ⟨rfl, rfl⟩) (attains.yields running yields)
  · rintro _ middle ⟨output, yields⟩
    exact closes (yields.id.trans sameId) (Or.inl running) (attains.yields running yields)

end Failing

/-! ### Executions -/

section Executing

variable {mayAnswer : (request : Request) → request.Answer → Prop} {refuses : Prop}
  {watch : Store → Request → Prop} {store : Store} {run : Run}

/-- A run that has been entered is running. -/
theorem falters_enterRun (watches : ∀ after request, watch after request) (serves : store.Serves run)
    (resumeFrom : Option Int) :
    Heeds (faltering mayAnswer refuses watch) (enterRun run.id resumeFrom) store
      (fun outcome? after => outcome? = none → ∃ entered : Run, entered.id = run.id ∧
        entered.status = .running ∧ after.Serves entered)
      fun _ _ => True := by
  cases resumeFrom with
  | none =>
    refine (heeds_bind _ _).mpr (falters_now (watches _ _) fun now => (heeds_bind _ _).mpr ?_)
    have answered := Store.answer_startRun serves.held now
    by_cases pending : run.status = .pending
    · rw [if_pos pending] at answered
      let started : Run := { run with status := .running, startedAt := some now }
      have servesLater := serves.withRun started
      refine falters_ask (watches _ _) answered ((heeds_bind _ _).mpr (falters_ask (watches _ _)
        (Store.answer_run servesLater.held) ?_ fun _ _ => trivial)) fun _ _ => trivial
      exact (heeds_bind _ _).mpr (falters_log (watches _ _)
        fun _ => ⟨started, rfl, rfl, servesLater⟩)
    · rw [if_neg pending] at answered
      refine falters_ask (watches _ _) answered ((heeds_bind _ _).mpr (falters_ask (watches _ _)
        (Store.answer_run serves.held) ?_ fun _ _ => trivial)) fun _ _ => trivial
      exact (heeds_bind _ _).mpr (falters_log (watches _ _) fun no => nomatch no)
  | some order =>
    refine (heeds_bind _ _).mpr (falters_ask (watches _ _) (Store.answer_run serves.held) ?_
      fun _ _ => trivial)
    refine heeds_ite.mpr ⟨fun running => ?_, fun _ no => nomatch no⟩
    exact (heeds_bind _ _).mpr (falters_log (watches _ _) fun _ => ⟨run, rfl, running, serves⟩)

/-- Executing a closed run leaves it as it is. -/
theorem falters_execute_closed {closed : Run} (held : store.runs.get? closed.id = some closed)
    (terminal : closed.status.isTerminal = true) (equipment : Equipment)
    (resumeFrom : Option Int) :
    Heeds (faltering mayAnswer refuses fun after _ => after.runs.get? closed.id = some closed)
      (execute equipment closed.id resumeFrom) store
      (fun _ after => after.runs.get? closed.id = some closed)
      fun _ after => after.runs.get? closed.id = some closed := by
  have refused : ∀ fault : EngineFault, refuses → store.runs.get? closed.id = some closed :=
    fun _ _ => held
  refine (heeds_bind _ _).mpr ?_
  cases resumeFrom with
  | none =>
    have notPending : closed.status ≠ .pending := by
      intro pending
      rw [pending] at terminal
      cases terminal
    have answered := fun now => (Store.answer_startRun held now).trans (if_neg notPending)
    refine (heeds_bind _ _).mpr (falters_now held fun now => (heeds_bind _ _).mpr ?_)
    refine falters_ask held (answered now) ((heeds_bind _ _).mpr (falters_ask held
      (Store.answer_run held) ?_ refused)) refused
    exact (heeds_bind _ _).mpr (falters_log held held)
  | some order =>
    have notRunning : ¬ closed.status = .running := by
      intro running
      rw [running] at terminal
      cases terminal
    refine (heeds_bind _ _).mpr (falters_ask held (Store.answer_run held) ?_ refused)
    exact heeds_ite.mpr ⟨fun running => absurd running notRunning, fun _ => held⟩

/-! ### Going on with a run that has been left open -/

/-- A step that has ended is not begun again. -/
theorem falters_beginStep_ended {step : Step} {record : StepRun}
    (here : ∀ request, request.isOutside = false → watch store request)
    (has : store.Has run step record) (terminal : record.status.isTerminal = true) :
    Heeds (faltering mayAnswer refuses watch) (beginStep run.id step) store
      (fun handle after => handle = ⟨record, false⟩ ∧ after = store) fun _ _ => refuses := by
  refine (heeds_bind _ _).mpr (falters_now (here _ rfl) fun now => (heeds_bind _ _).mpr ?_)
  have answered : store.answer (.acquire run.id step now) = (.ok (.existing record), store) := by
    rw [Store.answer, Store.acquire, has]
  refine falters_ask (here _ rfl) answered ?_ fun _ refuses => refuses
  exact heeds_ite.mpr ⟨fun _ => ⟨rfl, rfl⟩, fun rests => absurd (by simp [terminal]) rests⟩

theorem falters_takeStep_ended {step : Step} {record : StepRun}
    (here : ∀ request, request.isOutside = false → watch store request)
    (has : store.Has run step record) (terminal : record.status.isTerminal = true)
    (equipment : Equipment) (submission : Submission) :
    Heeds (faltering mayAnswer refuses watch) (takeStep equipment run submission step) store
      (fun progress? after => progress? = progressAt record ∧ after = store)
      fun _ _ => refuses := by
  refine (heeds_bind _ _).mpr ((heeds_during _ _).mpr
    ((falters_beginStep_ended here has terminal).imp ?_ fun _ _ refuses => refuses))
  rintro _ after ⟨rfl, rfl⟩
  exact ⟨rfl, rfl⟩

/-- Steps that are behind are passed over, up to one that has failed. -/
theorem falters_takeSteps_ended {step : Step} {record : StepRun} {done rest : List Step}
    (here : ∀ request, request.isOutside = false → watch store request)
    (held : store.runs.get? run.id = some run) (wanted : run.cancelRequested = false)
    (behind : ∀ earlier ∈ done, store.Behind run.id earlier.key)
    (has : store.Has run step record) (failed : record.status = .failed) (equipment : Equipment)
    (submission : Submission) :
    Heeds (faltering mayAnswer refuses watch)
      (takeSteps equipment run submission (done ++ step :: rest)) store
      (fun progress after => progress = .failed record.error ∧ after = store)
      fun _ _ => refuses := by
  have takes : ∀ {first : Step} {more : List Step} {own : StepRun}, store.Has run first own →
      own.status.isTerminal = true →
      (∀ progress, progressAt own = some progress → progress = .failed record.error) →
      (progressAt own = none → Heeds (faltering mayAnswer refuses watch)
        (takeSteps equipment run submission more) store
        (fun progress after => progress = .failed record.error ∧ after = store)
        fun _ _ => refuses) →
      Heeds (faltering mayAnswer refuses watch)
        (takeSteps equipment run submission (first :: more)) store
        (fun progress after => progress = .failed record.error ∧ after = store)
        fun _ _ => refuses := by
    intro first more own has terminal stops goesOn
    refine (heeds_bind _ _).mpr ((heeds_during _ _).mpr (falters_ask (here _ rfl)
      (Store.answer_cancelFlag held) ?_ fun _ refuses => refuses))
    refine heeds_ite.mpr ⟨fun asked => absurd (wanted.symm.trans asked) Bool.false_ne_true,
      fun _ => (heeds_bind _ _).mpr ?_⟩
    refine (falters_takeStep_ended here has terminal equipment submission).imp ?_
      fun _ _ refuses => refuses
    rintro progress? after ⟨isProgress, rfl⟩
    cases progress? with
    | some progress => exact ⟨stops progress isProgress.symm, rfl⟩
    | none => exact goesOn isProgress.symm
  induction done with
  | nil =>
    have stopped : progressAt record = some (.failed record.error) := by
      rw [progressAt, failed]
    refine takes has (by rw [failed]; rfl) (fun progress isProgress => ?_) fun passed => ?_
    · exact (Option.some.inj (stopped.symm.trans isProgress)).symm
    · cases stopped.symm.trans passed
  | cons first done inductionHypothesis =>
    obtain ⟨own, hasOwn, lets⟩ := behind first List.mem_cons_self
    have terminal : own.status.isTerminal = true := by
      cases status : own.status with
      | running => exact absurd lets (Store.progressAt_of_running status)
      | passed | failed | skipped => rfl
    refine takes hasOwn terminal (fun progress isProgress => ?_) fun _ => ?_
    · cases lets.symm.trans isProgress
    · exact inductionHypothesis fun earlier member => behind earlier (List.mem_cons_of_mem _ member)

/-- Going on with a run that has come to a failed step closes it with the error of the step, if
nothing is refused. -/
theorem falters_execute_failed {start : Int} {record : StepRun}
    (attains : store.Attains run start record) (failed : record.status = .failed)
    (running : run.status = .running) (equipment : Equipment) :
    Heeds (faltering mayAnswer False fun _ request => request.isOutside = false)
      (execute equipment run.id (some start)) store
      (fun _ => store.Shuts run.id .failed record.error) fun _ _ => False := by
  have here : ∀ request : Request, request.isOutside = false → request.isOutside = false :=
    fun _ => id
  have held := attains.serves.held
  have isOpen : run.status.isTerminal = false := by
    rw [running]
    rfl
  obtain ⟨submission, submitted⟩ := attains.submitted
  obtain ⟨done, step, rest, split, behind, has⟩ := attains.taken
  have found : store.answer (.submission run.submissionId) = (.ok submission, store) := by
    rw [Store.answer, submitted]
  refine (heeds_bind _ _).mpr ((heeds_bind _ _).mpr (falters_ask rfl (Store.answer_run held) ?_
    fun _ => id))
  refine heeds_ite.mpr ⟨fun _ => ?_, fun other => absurd running other⟩
  refine (heeds_bind _ _).mpr (falters_log rfl ((heeds_bind _ _).mpr
    (falters_ask rfl (Store.answer_run held) ?_ fun _ => id)))
  refine (heeds_bind _ _).mpr ((heeds_lift _).mpr (program_heeds_run.mpr ?_))
  have drives : Heeds (faltering mayAnswer False fun _ request => request.isOutside = false)
      (drive equipment run start) store
      (fun progress after => progress = .failed record.error ∧ after = store)
      fun _ _ => False := by
    refine (heeds_bind _ _).mpr ((heeds_during _ _).mpr (falters_ask rfl found ?_ fun _ => id))
    rw [split]
    exact falters_takeSteps_ended here held attains.wanted behind has failed equipment submission
  refine drives.imp ?_ fun _ _ => False.elim
  rintro _ after ⟨rfl, rfl⟩
  exact (falters_closeRun held attains.serves.writable isOpen _ _ here fun _ request _ => id).imp
    (fun _ _ => id) fun _ _ refused => refused.1

end Executing

end Execution

/-! ### The error of the run -/

section Disclosing

variable {mayAnswer : (request : Request) → request.Answer → Prop} {equipment : Equipment}
  {run : Run} {resumeFrom : Option Int} {fault : EngineFault} {stepRun : StepRun}
  {origin raised after : World}

/-- An execution has entered a run and taken its steps until a fault came out of one at work. -/
inductive Breakdown (mayAnswer : (request : Request) → request.Answer → Prop)
    (equipment : Equipment) (runId : Uuid) (resumeFrom : Option Int) (origin : World)
    (fault : EngineFault) (stepRun : StepRun) (raised : World) : Prop
  | intro {entered : World} {begun : Run}
      (enters : (enterRun runId resumeFrom).run.Stumbles mayAnswer origin (.done (.ok none)) entered)
      (held : entered.store.runs.get? runId = some begun)
      (drives : (drive equipment begun (resumeFrom.getD leastOrder)).run.Stumbles mayAnswer entered
        (.done (.error ⟨fault, some stepRun⟩)) raised)

/-- Executions of a run one after the other.  In each of them the store may refuse what it is asked,
and each may be cut short anywhere. -/
inductive Retried (mayAnswer : (request : Request) → request.Answer → Prop) (equipment : Equipment)
    (runId : Uuid) (origin : World) : World → Prop
  | start : Retried mayAnswer equipment runId origin origin
  | again {world after : World} {resumeFrom : Option Int}
      {rest : Program (Except EngineFault RunOutcome)}
      (earlier : Retried mayAnswer equipment runId origin world)
      (stumbles : (execute equipment runId resumeFrom).run.Stumbles mayAnswer world rest after) :
    Retried mayAnswer equipment runId origin after

/-- What is left to do for an execution that has broken down is to deal with the fault. -/
theorem Breakdown.stumbles {runId : Uuid}
    (breaks : Breakdown mayAnswer equipment runId resumeFrom origin fault stepRun raised) :
    (execute equipment runId resumeFrom).run.Stumbles mayAnswer origin
      (failRun runId ⟨fault, some stepRun⟩).run raised := by
  obtain @⟨entered, begun, enters, held, drives⟩ := breaks
  have reads : (Job.store (.run runId)).run.Stumbles mayAnswer entered (.done (.ok begun)) entered :=
    .asked (.answered ⟨(congrArg Prod.fst (Store.answer_run held)).symm,
      by rw [Store.answer_run held]⟩) (.here _ _)
  have looks : (ExceptT.lift (drive equipment begun (resumeFrom.getD leastOrder)).run :
      Job (Except Interruption Progress)).run.Stumbles mayAnswer entered
        (.done (.ok (.error ⟨fault, some stepRun⟩))) raised := by
    change (Except.ok <$> (drive equipment begun (resumeFrom.getD leastOrder)).run).Stumbles _ _ _ _
    rw [map_eq_pure_bind]
    exact drives.bind _
  exact (enters.continues _).trans ((reads.continues _).trans (looks.continues _))

/-- However far the execution has got with the fault, it has this aftermath. -/
theorem Breakdown.aftermath {rest : Program (Except EngineFault RunOutcome)}
    (serves : origin.store.Serves run)
    (breaks : Breakdown mayAnswer equipment run.id resumeFrom origin fault stepRun raised)
    (deals : (failRun run.id ⟨fault, some stepRun⟩).run.Stumbles mayAnswer raised rest after) :
    ∃ begun : Run, begun.id = run.id ∧ begun.status = .running ∧
      Aftermath begun (resumeFrom.getD leastOrder) stepRun fault after.store := by
  obtain ⟨enters, held, drives⟩ := breaks
  let unwatched : Store → Request → Prop := fun _ _ => True
  have watches : ∀ after request, unwatched after request := fun _ _ => trivial
  obtain ⟨entered, sameId, running, servesEntered⟩ :=
    enters.comes (falters_enterRun watches serves resumeFrom) rfl
  rw [← sameId] at held deals
  obtain rfl := Option.some.inj (held.symm.trans servesEntered.held)
  obtain ⟨record, sameStep, stillRuns, attains⟩ :=
    drives.comes (falters_drive watches servesEntered equipment _) stepRun rfl
  exact ⟨_, sameId, running,
    deals.remains (falters_failRun attains sameStep stillRuns running fault)⟩

/-- A closed run stays closed, with the error that it has, whatever is tried. -/
theorem Retried.stays {closed : Run} {last : World}
    (retried : Retried mayAnswer equipment closed.id after last)
    (held : after.store.runs.get? closed.id = some closed)
    (terminal : closed.status.isTerminal = true) :
    last.store.runs.get? closed.id = some closed := by
  induction retried with
  | start => exact held
  | again _ stumbles held => exact stumbles.remains (falters_execute_closed held terminal _ _)

/-- A run that has been left open, with its step failed, is closed with the details when it is gone on
with. -/
theorem Breakdown.discloses {rest : Program (Except EngineFault RunOutcome)}
    (serves : origin.store.Serves run)
    (breaks : Breakdown mayAnswer equipment run.id resumeFrom origin fault stepRun raised)
    (deals : (failRun run.id ⟨fault, some stepRun⟩).run.Stumbles mayAnswer raised rest after)
    (failed : ∃ ended, after.store.stepRuns.get? stepRun.id = some ended ∧ ended.status = .failed)
    (leftOpen : ∀ later, after.store.runs.get? run.id = some later → later.status ≠ .failed) :
    ∃ last closed, Retried mayAnswer equipment run.id after last ∧
      last.store.runs.get? run.id = some closed ∧ closed.status = .failed ∧
      closed.error = some fault.message := by
  obtain ⟨begun, sameId, running, aftermath⟩ := breaks.aftermath serves deals
  rw [← sameId] at leftOpen ⊢
  cases aftermath with
  | closed _ held isFailed => exact absurd isFailed (leftOpen _ held)
  | @left record sameStep told attains =>
    obtain ⟨ended, held, hasFailed⟩ := failed
    rw [← sameStep, attains.held] at held
    obtain rfl := Option.some.inj held
    obtain ⟨_, isError⟩ : record.status = .failed ∧ record.error = some fault.message := by
      rcases told with stillRuns | told
      · rw [hasFailed] at stillRuns
        cases stillRuns
      · exact told
    obtain ⟨result, last, stumbles, reached⟩ : ∃ result last,
        (execute equipment begun.id (some (resumeFrom.getD leastOrder))).run.Stumbles mayAnswer after
          (.done result) last ∧ Either _ _ result last.store :=
      Program.Heeds.arrives (falters_execute_failed attains hasFailed running equipment)
    cases result with
    | error => exact reached.elim
    | ok outcome =>
      obtain ⟨closed, _, isFailed, told, held⟩ := Store.Shuts.held reached
      exact ⟨last, closed, .again .start stumbles, held, isFailed, told.trans isError⟩

/-- A step has failed because of a fault that came out of it.  The run tells nothing of the fault,
whenever it may be closed as failed, exactly if the execution that met with the fault has closed
it. -/
theorem Breakdown.conceals_iff {rest : Program (Except EngineFault RunOutcome)}
    (serves : origin.store.Serves run)
    (breaks : Breakdown mayAnswer equipment run.id resumeFrom origin fault stepRun raised)
    (deals : (failRun run.id ⟨fault, some stepRun⟩).run.Stumbles mayAnswer raised rest after)
    (failed : ∃ ended, after.store.stepRuns.get? stepRun.id = some ended ∧
      ended.status = .failed) :
    (∀ last, Retried mayAnswer equipment run.id after last →
      ∀ later, last.store.runs.get? run.id = some later → later.status = .failed →
        later.error = some genericFailure) ↔
      ∃ closed, after.store.runs.get? run.id = some closed ∧ closed.status = .failed := by
  constructor
  · intro conceals
    by_contra leftOpen
    obtain ⟨last, closed, retried, held, isFailed, told⟩ :=
      breaks.discloses serves deals failed fun later held isFailed => leftOpen ⟨later, held, isFailed⟩
    have hidden := conceals last retried closed held isFailed
    rw [told] at hidden
    exact fault.message_ne_generic (Option.some.inj hidden)
  · rintro ⟨closed, held, isFailed⟩ last retried later heldLater _
    obtain ⟨begun, sameId, running, aftermath⟩ := breaks.aftermath serves deals
    rw [← sameId] at held heldLater retried
    cases aftermath with
    | left _ _ attains =>
      obtain rfl := Option.some.inj (attains.serves.held.symm.trans held)
      rw [running] at isFailed
      cases isFailed
    | @closed other sameRun heldOther isFailed generic =>
      rw [← sameRun] at heldOther retried heldLater
      have stays := retried.stays heldOther (by rw [isFailed]; rfl)
      obtain rfl := Option.some.inj (stays.symm.trans heldLater)
      exact generic

end Disclosing

/-! ### A store that refuses -/

namespace Example

open Execution

/-- Why the store refuses what it is asked. -/
def denied : EngineFault := .storage "disk 7 is full"

def entry : Program (Except EngineFault (Option RunOutcome)) × World :=
  World.stumble (surroundings accepted) (List.replicate 4 none) (enterRun run.id none).run world

/-- The store refuses the findings of the first step. -/
def raising : Program (Except Interruption Progress) × World :=
  World.stumble (surroundings accepted) (List.replicate 7 none ++ [some denied])
    (takeSteps equipment (started run (World.stampOf 0).time) submission steps).run entry.2

def atWork : StepRun := .begun stepId run.id check (World.stampOf 1).time

/-- The step fails, and then the run is closed or cannot be closed. -/
def dealing (refusal? : Option EngineFault) : Program (Except EngineFault RunOutcome) × World :=
  World.stumble (surroundings accepted) (List.replicate 8 none ++ [refusal?])
    (failRun run.id ⟨denied, some atWork⟩).run raising.2

theorem serves_world : world.store.Serves run := ⟨coherent_store, rfl, rfl⟩

theorem breakdown_raising : Breakdown (surroundings accepted).answers equipment run.id none world
    denied atWork raising.2 := by
  have reads : (drive equipment (started run (World.stampOf 0).time) leastOrder).run.Stumbles
      (surroundings accepted).answers entry.2
      (takeSteps equipment (started run (World.stampOf 0).time) submission
        ((Run.inOrder (Run.inOrder steps)).filter fun step => leastOrder ≤ step.order)).run
      entry.2 :=
    World.stumbles_stumble (surroundings accepted) [none]
      (drive equipment (started run (World.stampOf 0).time) leastOrder).run entry.2
  rw [taken_steps (by decide)] at reads
  have raises : raising.1 = .done (.error ⟨denied, some atWork⟩) := rfl
  have takes := World.stumbles_stumble (surroundings accepted) (List.replicate 7 none ++ [some denied])
    (takeSteps equipment (started run (World.stampOf 0).time) submission steps).run entry.2
  exact .intro (World.stumbles_stumble (surroundings accepted) (List.replicate 4 none) _ world) rfl
    (reads.trans (raises ▸ takes))

theorem stumbles_dealing (refusal? : Option EngineFault) :
    (failRun run.id ⟨denied, some atWork⟩).run.Stumbles (surroundings accepted).answers raising.2
      (dealing refusal?).1 (dealing refusal?).2 :=
  World.stumbles_stumble _ _ _ _

theorem failed_dealing (refusal? : Option EngineFault) : ∃ ended,
    (dealing refusal?).2.store.stepRuns.get? atWork.id = some ended ∧ ended.status = .failed := by
  cases refusal? <;> exact ⟨_, rfl, rfl⟩

/-- The execution closes the run, and nothing is told of what the store has said. -/
theorem concealed_dealing :
    (∃ closed, (dealing none).2.store.runs.get? run.id = some closed ∧ closed.status = .failed) ∧
    ∀ last, Retried (surroundings accepted).answers equipment run.id (dealing none).2 last →
      ∀ later, last.store.runs.get? run.id = some later → later.status = .failed →
        later.error = some genericFailure := by
  have closed : ∃ closed, (dealing none).2.store.runs.get? run.id = some closed ∧
      closed.status = .failed := ⟨_, rfl, rfl⟩
  exact ⟨closed,
    (breakdown_raising.conceals_iff serves_world (stumbles_dealing none)
      (failed_dealing none)).mpr closed⟩

/-- The execution cannot close the run, and a later one does so with what the store has said. -/
theorem not_concealed : ∃ (after last : World) (rest : Program (Except EngineFault RunOutcome))
    (ended : StepRun) (closed : Run),
    Breakdown (surroundings accepted).answers equipment run.id none world denied atWork raising.2 ∧
    (execute equipment run.id none).run.Stumbles (surroundings accepted).answers world rest after ∧
    after.store.stepRuns.get? atWork.id = some ended ∧ ended.status = .failed ∧
    Retried (surroundings accepted).answers equipment run.id after last ∧
    last.store.runs.get? run.id = some closed ∧ closed.status = .failed ∧
    closed.error = some denied.message ∧ closed.error ≠ some genericFailure := by
  have deals := stumbles_dealing (some denied)
  obtain ⟨ended, held, failed⟩ := failed_dealing (some denied)
  have leftOpen : ∀ later, (dealing (some denied)).2.store.runs.get? run.id = some later →
      later.status ≠ .failed := by
    rintro _ ⟨⟩ ⟨⟩
  obtain ⟨last, closed, retried, heldRun, isFailed, told⟩ :=
    breakdown_raising.discloses serves_world deals ⟨ended, held, failed⟩ leftOpen
  refine ⟨_, last, _, ended, closed, breakdown_raising, breakdown_raising.stumbles.trans deals,
    held, failed, retried, heldRun, isFailed, told, ?_⟩
  rw [told]
  exact fun same => denied.message_ne_generic (Option.some.inj same)

end Example

end Vetting
