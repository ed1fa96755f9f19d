import Vetting.Proofs.Program.Wavering
import Vetting.Proofs.Run.Answering

/-!
Contract: what a callback that fails leaves behind.

Owns:
- `Store.Littered`: a step run may have got more findings, and is as it was apart from them;
- `Store.Concluded`: a step run has ended, whatever findings it has got by then;
- `Remnant`: what of this a callback may leave that fails because writes do;
- that it leaves nothing else, and that its receipt is given back.

Does not own: what the same callback comes to when it is made again
(`Vetting.Proofs.Run.Redelivery`).

Findings are recorded before the step ends, and the step ends before the run is closed.  A
write may fail after any of those that have been taken.
-/

namespace Vetting

open Store (Rewrites)

/-- The record of a step run is as it was.  If working writes have been met, findings may have been
added. -/
def Store.Littered (met : Bool → Prop) (before : Store) (stepRun : StepRun) (after : Store) : Prop :=
  ∃ more, Rewrites before stepRun (before.findingsOf stepRun.id ++ more) after ∧
    (met false ∨ more = [])

/-- Working writes have been met, and the step run has ended with a status. -/
structure Store.Concluded (met : Bool → Prop) (before : Store) (stepRun : StepRun)
    (status : StepStatus) (after : Store) : Prop where
  met : met false
  ended : ∃ output error now more, Rewrites before (stepRun.ended status output error now)
    (before.findingsOf stepRun.id ++ more) after

/-- Nothing but a step run has got another record or other findings. -/
def Store.Rewritten (before : Store) (id : Uuid) (after : Store) : Prop :=
  ∃ record findings, record.id = id ∧ Rewrites before record findings after

section Rewritten

variable {met : Bool → Prop} {before after : Store} {stepRun : StepRun}

theorem Store.Littered.rewritten (littered : before.Littered met stepRun after) :
    before.Rewritten stepRun.id after := by
  obtain ⟨more, rewrites, _⟩ := littered
  exact ⟨stepRun, _, rfl, rewrites⟩

theorem Store.Concluded.rewritten {status : StepStatus}
    (concluded : before.Concluded met stepRun status after) :
    before.Rewritten stepRun.id after := by
  obtain ⟨output, error, now, more, rewrites⟩ := concluded.ended
  exact ⟨stepRun.ended status output error now, _, rfl, rewrites⟩

theorem Store.Rewritten.steady {id : Uuid} (rewritten : before.Rewritten id after)
    (steady : before.failingWrites = false) : after.failingWrites = false := by
  obtain ⟨_, _, _, rewrites⟩ := rewritten
  exact rewrites.failingWrites.trans steady

theorem Store.Rewritten.get?_run {id : Uuid} (rewritten : before.Rewritten id after) {runId : Uuid}
    {run : Run} (held : before.runs.get? runId = some run) : after.runs.get? runId = some run := by
  obtain ⟨_, _, _, rewrites⟩ := rewritten
  rw [rewrites.runs, held]

end Rewritten

namespace Execution

/-! ### Closing a run -/

section Closing

variable {mayAnswer : (request : Request) → request.Answer → Prop} {met : Bool → Prop}
  {watch : Store → Request → Prop} {store : Store} {run : Run}
  (watches : ∀ store request, watch store request) (steady : store.failingWrites = false)

include watches steady

theorem wavers_run {α : Type} {next : Run → Job α} {good : α → Store → Prop}
    {bad : EngineFault → Store → Prop} {id : Uuid} (held : store.runs.get? id = some run)
    (goesOn : Heeds (wavering mayAnswer met watch) (next run) store good bad) :
    Heeds (wavering mayAnswer met watch) (Job.store (.run id) >>= next) store good bad :=
  (heeds_bind _ _).mpr (wavers_ask (watches _ _) (fun _ => Store.answer_run held) steady goesOn)

theorem wavers_storeSummary {id : Uuid} (held : store.runs.get? id = some run)
    (sameId : run.id = id) :
    Heeds (wavering mayAnswer met watch) (storeSummary id) store
      (fun _ last => ∃ later, later.id = id ∧ last = store.withRun later)
      fun _ _ => False := by
  subst sameId
  have stepRuns : ∀ failing, (store.withFailing failing).answer (.stepRuns run.id) =
      (.ok (store.stepRunsOf run.id), store.withFailing failing) := fun _ => rfl
  have findings : ∀ failing, (store.withFailing failing).answer (.runFindings run.id) =
      (.ok (store.findingsOfRun run.id), store.withFailing failing) := fun _ => rfl
  refine (heeds_bind _ _).mpr (wavers_run watches steady held ?_)
  refine (heeds_bind _ _).mpr (wavers_ask (watches _ _) stepRuns steady ?_)
  refine (heeds_bind _ _).mpr (wavers_ask (watches _ _) findings steady ?_)
  refine (heeds_bind _ _).mpr (wavers_now (watches _ _) fun now => ?_)
  let summary := summaryOf run (store.stepRunsOf run.id) (store.findingsOfRun run.id) now
  have saved : ∀ failing, (store.withFailing failing).answer (.saveSummary run.id summary) =
      (.ok (), (store.withRun (run.summarized summary)).withFailing failing) := fun failing =>
    Store.answer_saveSummary (show (store.withFailing failing).runs.get? run.id = some run from held) _
  exact (heeds_bind _ _).mpr (wavers_ask (watches _ _) saved steady
    ⟨run.summarized summary, rfl, rfl⟩)

/-- Closing an open run either is refused or is done. -/
theorem wavers_closeRun {id : Uuid} (held : store.runs.get? id = some run) (sameId : run.id = id)
    (isOpen : run.status.isTerminal = false) (status : RunStatus) (error : Option String) :
    Heeds (wavering mayAnswer met watch) (closeRun id status error) store
      (fun _ last => ∃ later, later.id = id ∧ last = store.withRun later)
      fun _ last => last = store := by
  subst sameId
  refine (heeds_bind _ _).mpr (wavers_now (watches _ _) fun now => (heeds_bind _ _).mpr ?_)
  refine wavers_write (watches _ _) steady rfl
    (Store.answer_closeRun held steady isOpen status error now) (fun _ => ?_) rfl
  let closed : Run := { run with status, error, endedAt := some now }
  have heldClosed : (store.withRun closed).runs.get? closed.id = some closed :=
    store.withRun_get? closed
  have steadyClosed : (store.withRun closed).failingWrites = false := steady
  refine (heeds_bind _ _).mpr (wavers_log (watches _ _) ((heeds_bind _ _).mpr ?_))
  refine (wavers_storeSummary watches steadyClosed heldClosed rfl).imp ?_ fun _ _ => False.elim
  rintro _ _ ⟨later, sameId, rfl⟩
  rw [Store.withRun_withRun _ sameId]
  have sameRun : later.id = run.id := sameId
  have heldLater : (store.withRun later).runs.get? run.id = some later := by
    rw [← sameRun]
    exact store.withRun_get? later
  have steadyLater : (store.withRun later).failingWrites = false := steady
  exact wavers_run watches steadyLater heldLater ⟨later, sameId, rfl⟩

end Closing

section Wavering

variable {mayAnswer : (request : Request) → request.Answer → Prop} {met : Bool → Prop}
  {watch : Store → Request → Prop} {before after : Store} {stepRun : StepRun} {run : Run}
  (watches : ∀ store request, watch store request) (steady : before.failingWrites = false)

include watches steady

/-! ### Findings, and the end of a step -/

theorem wavers_record (littered : before.Littered met stepRun after) (runId : Uuid)
    (issues : List Issue) :
    Heeds (wavering mayAnswer met watch) (record runId stepRun.id issues .append) after
      (fun _ => before.Littered met stepRun) fun _ => before.Littered met stepRun := by
  obtain ⟨more, rewrites, clean⟩ := littered
  have steadyAfter := rewrites.failingWrites.trans steady
  refine (heeds_bind _ _).mpr (wavers_stamp (watches _ _) fun stamp => (heeds_bind _ _).mpr ?_)
  have answered := (Store.answer_appendFindings after stepRun.id
    (findingsOf runId stepRun.id stamp issues)).trans
      (Store.answer_replaceFindings steadyAfter _ _)
  rw [rewrites.findings_self, List.append_assoc] at answered
  refine wavers_write (watches _ _) steadyAfter rfl answered (fun meets => ?_)
    ⟨more, rewrites, clean⟩
  exact ⟨_, rewrites.trans (Store.rewrites_findings rewrites.get?_self _) rfl, Or.inl meets⟩

theorem wavers_countFindings (littered : before.Littered met stepRun after) :
    Heeds (wavering mayAnswer met watch) (countFindings stepRun.id) after
      (fun _ => before.Littered met stepRun) fun _ => before.Littered met stepRun := by
  have steadyAfter : after.failingWrites = false := by
    obtain ⟨more, rewrites, _⟩ := littered
    exact rewrites.failingWrites.trans steady
  have answered : ∀ failing, (after.withFailing failing).answer (.findings stepRun.id) =
      (.ok (after.findingsOf stepRun.id), after.withFailing failing) := fun _ => rfl
  exact (heeds_bind _ _).mpr (wavers_ask (watches _ _) answered steadyAfter littered)

theorem wavers_endStep (littered : before.Littered met stepRun after)
    (running : stepRun.status = .running) (passed : Bool) (output : StepOutput)
    (error : Option String) :
    Heeds (wavering mayAnswer met watch) (endStep stepRun (verdictStatus passed) output error) after
      (fun ended last => (StepResult.ofStepRun ended).passed? = some passed ∧
        before.Concluded met stepRun (verdictStatus passed) last)
      fun _ => before.Littered met stepRun := by
  obtain ⟨more, rewrites, clean⟩ := littered
  have steadyAfter := rewrites.failingWrites.trans steady
  have goesOn : (!(verdictStatus passed).isTerminal ||
      !stepRun.status.mayBecome (verdictStatus passed)) = false := by
    rw [verdictStatus_isTerminal, running]
    rfl
  refine (heeds_bind _ _).mpr (wavers_now (watches _ _) fun now => ?_)
  rw [endStepAt, goesOn]
  let ended := stepRun.ended (verdictStatus passed) output error now
  have held : after.stepRuns.get? ended.id = some stepRun := rewrites.get?_self
  refine (heeds_bind _ _).mpr (wavers_write (watches _ _) steadyAfter rfl
    (Store.answer_updateStepRun steadyAfter held) (fun meets => ?_) ⟨more, rewrites, clean⟩)
  have recorded := rewrites.trans (Store.rewrites_stepRun after ended) rfl
  have findings : after.findingsOf ended.id = before.findingsOf stepRun.id ++ more :=
    rewrites.findings_self
  rw [findings] at recorded
  refine (heeds_bind _ _).mpr (wavers_log (watches _ _) ⟨?_, meets, _, _, _, _, recorded⟩)
  cases passed <;> rfl

/-- The findings are counted, and the step ends. -/
theorem wavers_countAndFinish (littered : before.Littered met stepRun after)
    (running : stepRun.status = .running) (passed : Bool) (output : SeverityCounts → StepOutput)
    (error : Option String) :
    Heeds (wavering mayAnswer met watch) (do
        let counts ← countFindings stepRun.id
        return StepResult.ofStepRun
          (← endStep stepRun (verdictStatus passed) (output counts) error)) after
      (fun result last => result.passed? = some passed ∧
        before.Concluded met stepRun (verdictStatus passed) last)
      fun _ => before.Littered met stepRun := by
  refine (heeds_bind _ _).mpr ((wavers_countFindings watches steady littered).imp
    (fun counts last littered => (heeds_bind _ _).mpr ?_) fun _ _ littered => littered)
  exact wavers_endStep watches steady littered running passed _ _

theorem wavers_failWithIssue (littered : before.Littered met stepRun after)
    (running : stepRun.status = .running) (issue : Issue) (output : StepOutput) :
    Heeds (wavering mayAnswer met watch) (failWithIssue stepRun issue output) after
      (fun result last => result.passed? = some false ∧ before.Concluded met stepRun .failed last)
      fun _ => before.Littered met stepRun := by
  refine (heeds_bind _ _).mpr ((wavers_record watches steady littered _ _).imp
    (fun recorded last littered => ?_) fun _ _ littered => littered)
  exact wavers_countAndFinish watches steady littered running false _ _

/-! ### Completing a step -/

/-- A step has ended, and its result says how. -/
def Finishes (met : Bool → Prop) (before : Store) (stepRun : StepRun) (result : StepResult)
    (last : Store) : Prop :=
  ∃ passed, result.passed? = some passed ∧
    before.Concluded met stepRun (verdictStatus passed) last

theorem wavers_stepRun (littered : before.Littered met stepRun after) {α : Type}
    {next : StepRun → Job α} {good : α → Store → Prop} {bad : EngineFault → Store → Prop}
    (goesOn : Heeds (wavering mayAnswer met watch) (next stepRun) after good bad) :
    Heeds (wavering mayAnswer met watch) (Job.store (.stepRun stepRun.id) >>= next) after good
      bad := by
  obtain ⟨more, rewrites, _⟩ := littered
  exact (heeds_bind _ _).mpr (wavers_ask (watches _ _)
    (fun _ => Store.answer_stepRun rewrites.get?_self) (rewrites.failingWrites.trans steady) goesOn)

theorem wavers_failCurrent (littered : before.Littered met stepRun after)
    (running : stepRun.status = .running) (code detail : String) :
    Heeds (wavering mayAnswer met watch) (failCurrent stepRun.id code detail) after
      (Finishes met before stepRun) fun _ => before.Littered met stepRun := by
  refine wavers_stepRun watches steady littered ?_
  rw [running]
  exact (wavers_failWithIssue watches steady littered running _ _).imp
    (fun _ _ finished => ⟨false, finished⟩) fun _ _ littered => littered

theorem wavers_contain {job : Job StepResult}
    (running : stepRun.status = .running)
    (heeds : Heeds (wavering mayAnswer met watch) job after (Finishes met before stepRun)
      fun _ => before.Littered met stepRun) :
    Heeds (wavering mayAnswer met watch) (contain stepRun.id job) after
      (Finishes met before stepRun) fun _ => before.Littered met stepRun := by
  refine (heeds_tryCatch _ _).mpr (heeds.imp (fun _ _ finished => finished)
    fun fault last littered => ?_)
  split
  · exact wavers_failCurrent watches steady littered running _ _
  · exact wavers_failCurrent watches steady littered running _ _
  · exact littered

theorem wavers_completeWith (littered : before.Littered met stepRun after)
    (running : stepRun.status = .running) (equipment : Equipment) (run : Run) (step : Step)
    (base : StepOutput) (envelope : Envelope) (external : ExternalValidator)
    (signals : Scope.Signals) :
    Heeds (wavering mayAnswer met watch)
      (completeWith equipment run step stepRun base envelope external signals) after
      (Finishes met before stepRun) fun _ => before.Littered met stepRun := by
  refine (heeds_bind _ _).mpr ((heeds_given _).mpr ?_)
  cases validatorOf step with
  | error fault => exact littered
  | ok found =>
    refine (heeds_bind _ _).mpr ((wavers_record watches steady littered _ _).imp
      (fun recorded last littered => ?_) fun _ _ littered => littered)
    exact (wavers_countAndFinish watches steady littered running _ _ _).imp
      (fun _ _ finished => ⟨_, finished⟩) fun _ _ littered => littered

theorem wavers_completeContained (littered : before.Littered met stepRun after)
    (running : stepRun.status = .running)
    (heldRun : before.runs.get? stepRun.runId = some run) (equipment : Equipment)
    (envelope : Envelope) :
    Heeds (wavering mayAnswer met watch) (completeContained equipment stepRun.id envelope) after
      (Finishes met before stepRun) fun _ => before.Littered met stepRun := by
  refine wavers_contain watches steady running (wavers_stepRun watches steady littered ?_)
  rw [running]
  have ⟨more, rewrites, _⟩ := littered
  have steadyAfter := rewrites.failingWrites.trans steady
  have heldAfter : after.runs.get? stepRun.runId = some run := by rw [rewrites.runs, heldRun]
  refine (heeds_bind _ _).mpr (wavers_ask (watches _ _) (fun _ => Store.answer_run heldAfter)
    steadyAfter ?_)
  cases run.stepByKey? stepRun.stepKey with
  | none => exact littered
  | some step =>
    refine (heeds_bind _ _).mpr ((heeds_given _).mpr ?_)
    cases validatorOf step with
    | error fault => exact littered
    | ok found =>
      refine (heeds_bind _ _).mpr ((heeds_given _).mpr ?_)
      cases resolveExternal equipment found.1 with
      | error fault => exact littered
      | ok external =>
        have answered : ∀ failing, (after.withFailing failing).answer (.stepRuns run.id) =
            (.ok (after.stepRunsOf run.id), after.withFailing failing) := fun _ => rfl
        refine (heeds_bind _ _).mpr ((heeds_bind _ _).mpr
          (wavers_ask (watches _ _) answered steadyAfter ?_))
        exact wavers_completeWith watches steady littered running _ _ _ _ _ _ _

/-! ### Callbacks -/

/-- What is left by a callback that fails because writes do. -/
inductive Remnant (met : Bool → Prop) (before : Store) (stepRun : StepRun) (run : Run)
    (after : Store) : Prop
  | littered (littered : before.Littered met stepRun after)
  /-- The step has failed, and its run could not be closed. -/
  | failed (isOpen : run.status.isTerminal = false)
      (concluded : before.Concluded met stepRun .failed after)

omit watches steady in
theorem Remnant.rewritten (remnant : Remnant met before stepRun run after) :
    before.Rewritten stepRun.id after := by
  cases remnant with
  | littered littered => exact littered.rewritten
  | failed _ concluded => exact concluded.rewritten

theorem wavers_failStep (littered : before.Littered met stepRun after)
    (running : stepRun.status = .running) (fault : EngineFault) :
    Heeds (wavering mayAnswer met watch) (failStep stepRun fault) after
      (fun _ => before.Concluded met stepRun .failed) fun _ => before.Littered met stepRun := by
  refine wavers_stepRun watches steady littered ?_
  rw [running]
  exact (heeds_bind _ _).mpr ((wavers_failWithIssue watches steady littered running _ _).imp
    (fun _ _ finished => finished.2) fun _ _ littered => littered)

/-- A result is reported once the run has been closed or given a summary. -/
theorem wavers_reports {later : Run} (rewritten : before.Rewritten stepRun.id after)
    (sameLater : later.id = stepRun.runId) :
    Heeds (wavering mayAnswer met watch) (do
        let latest ← Job.store (.stepRun stepRun.id)
        return (⟨.ofStepRun latest, none, false,
          (← Job.store (.run stepRun.runId)).status⟩ : CallbackOutcome)) (after.withRun later)
      (fun _ _ => True) fun _ => Remnant met before stepRun run := by
  have steadyLater : (after.withRun later).failingWrites = false := rewritten.steady steady
  obtain ⟨record, findings, sameRecord, rewrites⟩ := rewritten
  have held : (after.withRun later).stepRuns.get? stepRun.id = some record :=
    sameRecord ▸ rewrites.get?_self
  have heldLater : (after.withRun later).runs.get? stepRun.runId = some later := by
    rw [← sameLater]
    exact after.withRun_get? later
  refine (heeds_bind _ _).mpr (wavers_ask (watches _ _) (fun _ => Store.answer_stepRun held)
    steadyLater ?_)
  exact wavers_run watches steadyLater heldLater trivial

variable (heldRun : before.runs.get? stepRun.runId = some run) (sameId : run.id = stepRun.runId)

include heldRun sameId

theorem wavers_recoverCallback (littered : before.Littered met stepRun after)
    (running : stepRun.status = .running) (fault : EngineFault) :
    Heeds (wavering mayAnswer met watch) (recoverCallback stepRun fault) after (fun _ _ => True)
      fun _ => Remnant met before stepRun run := by
  have rewritten := littered.rewritten
  have fails : Heeds (wavering mayAnswer met watch) (failStep stepRun fault) after
      (fun _ => before.Concluded met stepRun .failed) fun _ => before.Littered met stepRun :=
    wavers_failStep watches steady littered running fault
  refine wavers_run watches (rewritten.steady steady) (rewritten.get?_run heldRun)
    (heeds_ite.mpr ⟨fun _ => ?_, fun isOpen => ?_⟩)
  · refine (heeds_bind _ _).mpr (fails.imp (fun _ middle concluded => ?_)
      fun _ _ littered => .littered littered)
    have rewritten := concluded.rewritten
    refine (heeds_bind _ _).mpr ((wavers_storeSummary watches (rewritten.steady steady)
      (rewritten.get?_run heldRun) sameId).imp ?_ fun _ _ => False.elim)
    rintro _ _ ⟨later, sameLater, rfl⟩
    exact wavers_reports watches steady rewritten sameLater
  · have isOpen : run.status.isTerminal = false := by simpa using isOpen
    have closes : ∀ {middle : Store}, Remnant met before stepRun run middle →
        Heeds (wavering mayAnswer met watch)
          (closeRun stepRun.runId .failed (some genericFailure)) middle
          (fun _ last => ∃ later, later.id = stepRun.runId ∧
            ∃ middle, before.Rewritten stepRun.id middle ∧ last = middle.withRun later)
          fun _ => Remnant met before stepRun run := by
      intro middle remnant
      have rewritten := remnant.rewritten
      refine (wavers_closeRun watches (rewritten.steady steady) (rewritten.get?_run heldRun) sameId
        isOpen _ _).imp ?_ ?_
      · rintro _ _ ⟨later, sameLater, rfl⟩
        exact ⟨later, sameLater, middle, rewritten, rfl⟩
      · rintro _ _ rfl
        exact remnant
    refine (heeds_bind _ _).mpr (Heeds.imp ((heeds_bind _ _).mpr ((heeds_tryCatch _ _).mpr
      (fails.imp (fun _ _ concluded => closes (.failed isOpen concluded))
        fun _ _ littered => closes (.littered littered)))) ?_ fun _ _ remnant => remnant)
    rintro _ _ ⟨later, sameLater, middle, rewritten, rfl⟩
    exact wavers_reports watches steady rewritten sameLater

theorem wavers_followCallback {result : StepResult}
    (finishes : Finishes met before stepRun result after) :
    Heeds (wavering mayAnswer met watch) (followCallback stepRun result) after (fun _ _ => True)
      fun _ => Remnant met before stepRun run := by
  obtain ⟨passed, isPassed, concluded⟩ := finishes
  have rewritten := concluded.rewritten
  have steadyAfter := rewritten.steady steady
  have heldAfter := rewritten.get?_run heldRun
  have reports : ∀ (resumeFrom : Option Int) (later : Run), later.id = stepRun.runId →
      Heeds (wavering mayAnswer met watch) (do
        return (⟨result, resumeFrom, false,
          (← Job.store (.run stepRun.runId)).status⟩ : CallbackOutcome)) (after.withRun later)
        (fun _ _ => True) fun _ => Remnant met before stepRun run := by
    intro resumeFrom later sameLater
    have steadyLater : (after.withRun later).failingWrites = false := steadyAfter
    have heldLater : (after.withRun later).runs.get? stepRun.runId = some later := by
      rw [← sameLater]
      exact after.withRun_get? later
    exact wavers_run watches steadyLater heldLater trivial
  refine (heeds_bind _ _).mpr (wavers_log (watches _ _)
    (wavers_run watches steadyAfter heldAfter ?_))
  refine heeds_ite.mpr ⟨fun _ => ?_, fun isOpen => heeds_ite.mpr ⟨fun _ => ?_, fun notPassed => ?_⟩⟩
  · refine (heeds_bind _ _).mpr ((wavers_storeSummary watches steadyAfter heldAfter sameId).imp ?_
      fun _ _ => False.elim)
    rintro _ _ ⟨later, sameLater, rfl⟩
    exact reports none later sameLater
  · exact wavers_run watches steadyAfter heldAfter trivial
  · have hasFailed : before.Concluded met stepRun .failed after := by
      cases passed with
      | true => exact absurd isPassed notPassed
      | false => exact concluded
    have isOpen : run.status.isTerminal = false := by simpa using isOpen
    refine (heeds_bind _ _).mpr ((wavers_closeRun watches steadyAfter heldAfter sameId isOpen _ _).imp
      ?_ ?_)
    · rintro _ _ ⟨later, sameLater, rfl⟩
      exact reports none later sameLater
    · rintro _ _ rfl
      exact .failed isOpen hasFailed

/-- A callback for a step that runs, whatever it fails with, leaves a remnant. -/
theorem wavers_applyCallback (running : stepRun.status = .running)
    (held : before.stepRuns.get? stepRun.id = some stepRun) (equipment : Equipment)
    (envelope : Envelope) :
    Heeds (wavering mayAnswer met watch) (applyCallback equipment stepRun envelope) before
      (fun _ _ => True) fun _ => Remnant met before stepRun run := by
  have untouched : before.Littered met stepRun before :=
    ⟨[], by rw [List.append_nil]; exact .refl held, Or.inr rfl⟩
  rw [applyCallback, running]
  refine (heeds_bind _ _).mpr ((heeds_lift _).mpr (program_heeds_run.mpr ?_))
  refine (wavers_completeContained watches steady untouched running heldRun equipment envelope).imp
    (fun _ _ finishes => ?_) fun fault _ littered => ?_
  · exact wavers_followCallback watches steady heldRun sameId finishes
  · exact wavers_recoverCallback watches steady heldRun sameId littered running fault

end Wavering

/-! ### The receipt -/

section Receipt

variable {mayAnswer : (request : Request) → request.Answer → Prop} {met : Bool → Prop}
  {watch : Store → Request → Prop} {store after : Store} {stepRun : StepRun} {run : Run}

theorem rewrites_withReceipts {record : StepRun} {findings : List Finding} {receipts : List String}
    (rewrites : Rewrites (store.withReceipts receipts) record findings after) :
    Rewrites store record findings (after.withReceipts store.receipts) :=
  ⟨rewrites.submissions, rewrites.runs, rewrites.stepRuns, rewrites.stepIndex, rewrites.findings,
    rfl, rewrites.failingWrites⟩

theorem Remnant.withReceipts {receipts : List String}
    (remnant : Remnant met (store.withReceipts receipts) stepRun run after) :
    Remnant met store stepRun run (after.withReceipts store.receipts) := by
  cases remnant with
  | littered littered =>
    obtain ⟨more, rewrites, clean⟩ := littered
    exact .littered ⟨more, rewrites_withReceipts rewrites, clean⟩
  | failed isOpen concluded =>
    obtain ⟨meets, output, error, now, more, rewrites⟩ := concluded
    exact .failed isOpen ⟨meets, output, error, now, more, rewrites_withReceipts rewrites⟩

/-- A receipt that has been added is the one that is taken back. -/
theorem releaseCallback_eq {key : String} (new : key ∉ store.receipts)
    (receipts : after.receipts = key :: store.receipts) :
    after.releaseCallback key = after.withReceipts store.receipts := by
  have rest : store.receipts.filter (fun receipt => receipt != key) = store.receipts := by
    refine List.filter_eq_self.mpr fun receipt member => bne_iff_ne.mpr ?_
    rintro rfl
    exact new member
  rw [Store.releaseCallback, receipts, List.filter_cons_of_neg (by simp), rest]
  rfl

/-- A callback with a token fails only if the token has been accepted, and leaves a remnant. -/
theorem wavers_completeCallback (watches : ∀ store request, watch store request)
    (steady : store.failingWrites = false) (running : stepRun.status = .running)
    (held : store.stepRuns.get? stepRun.id = some stepRun)
    (heldRun : store.runs.get? stepRun.runId = some run) (sameId : run.id = stepRun.runId)
    (equipment : Equipment) (envelope : Envelope) (key : String) :
    Heeds (wavering mayAnswer met watch)
      (completeCallback equipment stepRun.id envelope (some key)) store (fun _ _ => True)
      fun _ last => isStale stepRun key = false ∧ key ∉ store.receipts ∧
        Remnant met store stepRun run last := by
  have ignores : ∀ reason duplicate, Heeds (wavering mayAnswer met watch)
      (ignoreCallback stepRun reason duplicate) store (fun _ _ => True)
      fun _ last => isStale stepRun key = false ∧ key ∉ store.receipts ∧
        Remnant met store stepRun run last := fun _ _ =>
    (heeds_bind _ _).mpr (wavers_log (watches _ _) (wavers_run watches steady heldRun trivial))
  refine (heeds_bind _ _).mpr (wavers_ask (watches _ _) (fun _ => Store.answer_stepRun held)
    steady ?_)
  refine heeds_ite.mpr ⟨fun _ => ignores _ _, fun notStale => ?_⟩
  refine (heeds_bind _ _).mpr (wavers_now (watches _ _) fun now => (heeds_bind _ _).mpr ?_)
  by_cases known : key ∈ store.receipts
  · have answered : ∀ failing, (store.withFailing failing).answer
        (.recordCallback key stepRun.id now) = (.ok false, store.withFailing failing) :=
      fun failing =>
        answer_recordCallback_known (show key ∈ (store.withFailing failing).receipts from known) _ _
    exact wavers_ask (watches _ _) answered steady (ignores _ _)
  · let receipted := store.withReceipts (key :: store.receipts)
    have answered : ∀ failing, (store.withFailing failing).answer
        (.recordCallback key stepRun.id now) = (.ok true, receipted.withFailing failing) :=
      fun failing =>
        answer_recordCallback_new (show key ∉ (store.withFailing failing).receipts from known) _ _
    have steadyAfter : receipted.failingWrites = false := steady
    refine wavers_ask (watches _ _) answered steadyAfter ((heeds_tryCatch _ _).mpr ?_)
    refine (wavers_applyCallback watches steadyAfter heldRun sameId running held equipment
      envelope).imp (fun _ _ _ => trivial) fun fault last remnant => ?_
    have receipts : last.receipts = key :: store.receipts := by
      obtain ⟨_, _, _, rewrites⟩ := remnant.rewritten
      exact rewrites.receipts
    have released : ∀ failing, (last.withFailing failing).answer (.releaseCallback key) =
        (.ok (), (last.releaseCallback key).withFailing failing) := fun _ => rfl
    have steadyLast : (last.releaseCallback key).failingWrites = false :=
      remnant.rewritten.steady steadyAfter
    refine (heeds_bind _ _).mpr ((heeds_tryCatch _ _).mpr
      (wavers_ask (watches _ _) released steadyLast ?_))
    rw [releaseCallback_eq known receipts]
    exact ⟨by simpa using notStale, known, remnant.withReceipts⟩

end Receipt

end Execution

end Vetting
