import Vetting.Proofs.Program.Outside
import Vetting.Proofs.Run.Closing
import Vetting.Proofs.Step.Processing

/-!
Contract: what callbacks and cancellations make of a store.

Owns:
- `Conclusion.Settles`: the verdict that a callback settles a step with, and the error of
  the run if that fails;
- `Applied`: what a callback that is taken in leaves, whatever run and step it is for, and that it
  ends a step that runs;
- `Canceled`: what a request to cancel a run leaves;
- callbacks and requests that do nothing.

Does not own: how the run stands afterwards (`Vetting.Proofs.Run.Operations`).
-/

namespace Vetting.Execution

open Store (Rewrites Ends)

/-- The verdict that settles a step after a conclusion, and the error with which the run fails if
the step does. -/
inductive Conclusion.Settles (earlier : List Issue) (output : StepOutput) :
    Conclusion → Verdict → Option String → Prop
  | ended (verdict : Verdict) : Settles earlier output (.ended verdict) verdict verdict.error
  | faulted (fault : EngineFault) : Settles earlier output (.faulted fault)
      (.unexpected earlier fault output) (some genericFailure)

theorem Conclusion.Settles.decided {earlier : List Issue} {output : StepOutput}
    {conclusion : Conclusion} {verdict : Verdict} {error : Option String}
    (settles : conclusion.Settles earlier output verdict error) (decided : conclusion.Decided) :
    verdict.status = .passed ∨ verdict.status = .failed := by
  cases settles with
  | ended => exact decided verdict rfl
  | faulted => exact Or.inr rfl

/-- What a callback for a step run in a store comes to. -/
def callbackConclusion (equipment : Equipment) (store : Store) (run : Run) (stepRun : StepRun)
    (envelope : Envelope) : Conclusion :=
  .ofCallback equipment run (run.stepByKey? stepRun.stepKey) stepRun (store.issuesOf stepRun.id)
    envelope (store.signalsBefore run.id)

/-- A callback settles a step by making it fail, or by taking in the report of its job. -/
theorem Conclusion.Settles.fails_or_reports {equipment : Equipment} {store : Store} {run : Run}
    {stepRun : StepRun} {envelope : Envelope} {verdict : Verdict} {error : Option String}
    (settles : (callbackConclusion equipment store run stepRun envelope).Settles
      (store.issuesOf stepRun.id) stepRun.output verdict error) :
    (∃ code detail, verdict =
      .failing (store.issuesOf stepRun.id) (.error code detail) stepRun.output) ∨
    ∃ validator ruleset external signals, verdict = .ofEnvelope equipment.checker validator ruleset
      external stepRun.output (store.issuesOf stepRun.id) envelope signals := by
  have ofFault : ∀ fault, ofFault (store.issuesOf stepRun.id) stepRun.output fault =
      .ended verdict → ∃ code detail, verdict =
        .failing (store.issuesOf stepRun.id) (.error code detail) stepRun.output := by
    intro fault ended
    cases fault <;> cases ended <;> exact ⟨_, _, rfl⟩
  generalize isConclusion : callbackConclusion equipment store run stepRun envelope = conclusion
    at settles
  cases settles with
  | faulted => exact Or.inl ⟨_, _, rfl⟩
  | ended =>
    unfold callbackConclusion ofCallback at isConclusion
    split at isConclusion
    · cases isConclusion
    · split at isConclusion
      · exact Or.inl (ofFault _ isConclusion)
      · split at isConclusion
        · exact Or.inl (ofFault _ isConclusion)
        · cases isConclusion
          exact Or.inr ⟨_, _, _, _, rfl⟩

/-- What a callback settles a step with ends the step. -/
theorem Conclusion.Settles.terminal {equipment : Equipment} {store : Store} {run : Run}
    {stepRun : StepRun} {envelope : Envelope} {verdict : Verdict} {error : Option String}
    (settles : (callbackConclusion equipment store run stepRun envelope).Settles
      (store.issuesOf stepRun.id) stepRun.output verdict error) :
    verdict.status.isTerminal = true :=
  terminal_of_decided (settles.decided (Conclusion.decided_ofCallback _ _ _ _ _ _ _))

/-- What a callback that is taken in leaves. -/
inductive Applied (equipment : Equipment) (store : Store) (run : Run) (stepRun : StepRun)
    (envelope : Envelope) : CallbackOutcome → Store → Prop
  | finished {outcome : CallbackOutcome} (terminal : stepRun.status.isTerminal = true)
      (resumes : outcome.resumeFrom = none) :
    Applied equipment store run stepRun envelope outcome store
  /-- The run is closed already, and gets another summary. -/
  | late {verdict : Verdict} {error : Option String} {ended : StepRun} {middle : Store}
      {summary : RunSummary} {outcome : CallbackOutcome}
      (running : stepRun.status.isTerminal = false) (closed : run.status.isTerminal = true)
      (settles : (callbackConclusion equipment store run stepRun envelope).Settles
        (store.issuesOf stepRun.id) stepRun.output verdict error)
      (ends : Ends store stepRun verdict ended middle) (resumes : outcome.resumeFrom = none) :
    Applied equipment store run stepRun envelope outcome
      (middle.withRun (run.summarized summary))
  /-- The step has passed, and the run is to go on. -/
  | passed {verdict : Verdict} {ended : StepRun} {middle : Store}
      (running : stepRun.status.isTerminal = false) (isOpen : run.status.isTerminal = false)
      (settles : (callbackConclusion equipment store run stepRun envelope).Settles
        (store.issuesOf stepRun.id) stepRun.output verdict verdict.error)
      (hasPassed : verdict.status = .passed) (ends : Ends store stepRun verdict ended middle) :
    Applied equipment store run stepRun envelope
      ⟨.ofStepRun ended, some (resumePoint run stepRun.stepOrder), false, run.status⟩ middle
  /-- The step has failed, and the run is closed. -/
  | failed {verdict : Verdict} {error : Option String} {ended : StepRun} {middle : Store}
      {closed : Run} {outcome : CallbackOutcome}
      (running : stepRun.status.isTerminal = false) (isOpen : run.status.isTerminal = false)
      (settles : (callbackConclusion equipment store run stepRun envelope).Settles
        (store.issuesOf stepRun.id) stepRun.output verdict error)
      (hasFailed : verdict.status = .failed) (ends : Ends store stepRun verdict ended middle)
      (closes : run.Closes .failed error closed) (resumes : outcome.resumeFrom = none) :
    Applied equipment store run stepRun envelope outcome (middle.withRun closed)

/-- The status of a run after a callback has settled one of its steps. -/
def settledStatus (run : Run) (verdict : Verdict) : RunStatus :=
  if run.status.isTerminal = true ∨ verdict.status = .passed then run.status else .failed

theorem settledStatus_cases (run : Run) (verdict : Verdict) :
    settledStatus run verdict = run.status ∨
      run.status.isTerminal = false ∧ (settledStatus run verdict).isTerminal = true := by
  by_cases stays : run.status.isTerminal = true ∨ verdict.status = .passed
  · exact Or.inl (if_pos stays)
  · have failed : settledStatus run verdict = .failed := if_neg stays
    rw [failed]
    exact Or.inr ⟨by simpa using fun closed => stays (Or.inl closed), rfl⟩

/-- The order from which a run goes on after a callback has settled one of its steps. -/
def settledResume (run : Run) (stepRun : StepRun) (verdict : Verdict) : Option Int :=
  if run.status.isTerminal = false ∧ verdict.status = .passed then
    some (resumePoint run stepRun.stepOrder)
  else none

/-- At most a run has got another record, with the given status. -/
def Reruns (store : Store) (run : Run) (status : RunStatus) (after : Store) : Prop :=
  (after = store ∧ run.status = status) ∨
    ∃ later, run.Keeps later ∧ later.status = status ∧ after = store.withRun later

section Applying

variable {equipment : Equipment} {store after : Store} {run : Run} {stepRun : StepRun}
  {envelope : Envelope} {outcome : CallbackOutcome}

/-- A callback that is taken in while its step runs ends the step. -/
theorem Applied.settles
    (applied : Applied equipment store run stepRun envelope outcome after)
    (running : stepRun.status.isTerminal = false) :
    ∃ verdict error ended middle, (callbackConclusion equipment store run stepRun envelope).Settles
        (store.issuesOf stepRun.id) stepRun.output verdict error ∧
      Ends store stepRun verdict ended middle ∧
      Reruns middle run (settledStatus run verdict) after ∧
      outcome.resumeFrom = settledResume run stepRun verdict := by
  cases applied with
  | finished terminal =>
    rw [running] at terminal
    cases terminal
  | @late verdict error ended middle summary _ _ closed settles ends resumes =>
    have status : settledStatus run verdict = run.status := if_pos (Or.inl closed)
    refine ⟨verdict, error, ended, middle, settles, ends, Or.inr ?_, ?_⟩
    · exact ⟨_, run.keeps_summarized summary, status.symm, rfl⟩
    · rw [resumes, settledResume, if_neg (by simp [closed])]
  | passed _ isOpen settles hasPassed ends =>
    refine ⟨_, _, _, _, settles, ends, Or.inl ⟨rfl, ?_⟩, ?_⟩
    · rw [settledStatus, if_pos (Or.inr hasPassed)]
    · rw [settledResume, if_pos ⟨isOpen, hasPassed⟩]
  | @failed verdict error ended middle closed _ _ isOpen settles hasFailed ends closes resumes =>
    have status : settledStatus run verdict = .failed := if_neg (by simp [isOpen, hasFailed])
    refine ⟨verdict, error, ended, middle, settles, ends, Or.inr ?_, ?_⟩
    · exact ⟨closed, closes.toKeeps, closes.status.trans status.symm, rfl⟩
    · rw [resumes, settledResume, if_neg (by simp [hasFailed])]

/-- What is seen of a step run and its findings after that. -/
theorem Applied.records
    (applied : Applied equipment store run stepRun envelope outcome after)
    (running : stepRun.status.isTerminal = false) :
    ∃ verdict error now, (callbackConclusion equipment store run stepRun envelope).Settles
        (store.issuesOf stepRun.id) stepRun.output verdict error ∧
      after.stepRuns.get? stepRun.id =
        some (stepRun.ended verdict.status verdict.output verdict.error now) ∧
      after.issuesOf stepRun.id = verdict.issues ∧
      outcome.resumeFrom = settledResume run stepRun verdict := by
  obtain ⟨verdict, error, ended, middle, settles, ends, reruns, resumes⟩ := applied.settles running
  obtain ⟨now, rfl⟩ := ends.record
  obtain ⟨findings, issues, rewrites⟩ := ends.rewrites
  refine ⟨verdict, error, now, settles, ?_, ?_, resumes⟩ <;>
    rcases reruns with ⟨rfl, _⟩ | ⟨later, _, _, rfl⟩
  · exact rewrites.get?_self
  · exact rewrites.get?_self
  · exact rewrites.issuesOf_self.trans issues
  · exact rewrites.issuesOf_self.trans issues

/-- A callback that is taken in changes nothing if its step has ended.  If not, it ends the step and,
beyond that, changes at most the record of the run. -/
theorem Applied.same_or_settles
    (applied : Applied equipment store run stepRun envelope outcome after) :
    stepRun.status.isTerminal = true ∧ after = store ∨
      stepRun.status.isTerminal = false ∧ ∃ verdict error ended middle,
        (callbackConclusion equipment store run stepRun envelope).Settles
          (store.issuesOf stepRun.id) stepRun.output verdict error ∧
        Ends store stepRun verdict ended middle ∧
        Reruns middle run (settledStatus run verdict) after := by
  cases isEnded : stepRun.status.isTerminal with
  | true =>
    cases applied with
    | finished => exact Or.inl ⟨rfl, rfl⟩
    | late running | passed running | failed running =>
      rw [isEnded] at running
      cases running
  | false =>
    obtain ⟨verdict, error, ended, middle, settles, ends, reruns, _⟩ := applied.settles isEnded
    exact Or.inr ⟨rfl, verdict, error, ended, middle, settles, ends, reruns⟩

/-- A callback that is taken in for a step at work of an open run ends the step.  The run is to go on
from the next step, or is closed. -/
theorem Applied.of_open
    (applied : Applied equipment store run stepRun envelope outcome after)
    (running : stepRun.status.isTerminal = false) (isOpen : run.status.isTerminal = false) :
    ∃ verdict error ended middle, (callbackConclusion equipment store run stepRun envelope).Settles
        (store.issuesOf stepRun.id) stepRun.output verdict error ∧
      Ends store stepRun verdict ended middle ∧
      ((verdict.status = .passed ∧ after = middle ∧
          outcome.resumeFrom = some (resumePoint run stepRun.stepOrder)) ∨
        (verdict.status = .failed ∧ outcome.resumeFrom = none ∧
          ∃ closed, run.Closes .failed error closed ∧ after = middle.withRun closed)) := by
  cases applied with
  | finished terminal =>
    rw [running] at terminal
    cases terminal
  | late _ closed =>
    rw [isOpen] at closed
    cases closed
  | passed _ _ settles hasPassed ends =>
    exact ⟨_, _, _, _, settles, ends, Or.inl ⟨hasPassed, rfl, rfl⟩⟩
  | failed _ _ settles hasFailed ends closes resumes =>
    exact ⟨_, _, _, _, settles, ends, Or.inr ⟨hasFailed, resumes, _, closes, rfl⟩⟩

end Applying

section Callbacks

variable {regime : Regime} {world : World} {run : Run} {stepRun : StepRun}
  {equipment : Equipment} {envelope : Envelope}

theorem atWork_of_held (watches : ∀ world request, regime.watch world request) {store : Store}
    (writable : store.failingWrites = false)
    (held : store.stepRuns.get? stepRun.id = some stepRun) :
    AtWork regime Store.Any store stepRun :=
  ⟨fun _ _ _ => watches _ _, writable, held, fun _ _ _ => trivial⟩

/-- A callback that is ignored does nothing and calls nothing. -/
theorem ensures_ignoreCallback
    (watches : ∀ request : Request, request.isOutside = false → ∀ log clock,
      regime.watch ⟨world.store, log, clock⟩ request)
    (heldRun : world.store.runs.get? stepRun.runId = some run) (reason : String) (duplicate : Bool)
    {good : CallbackOutcome → World → Prop} {bad : EngineFault → World → Prop}
    (reached : ∀ log clock, good ⟨.ofStepRun stepRun, none, duplicate, run.status⟩
      ⟨world.store, log, clock⟩) :
    Ensures regime (ignoreCallback stepRun reason duplicate) world good bad := by
  simp only [ignoreCallback, ensures_bind, ensures_log]
  refine ⟨watches _ rfl _ _, fun time => ?_⟩
  refine (ensures_ask (Store.answer_run heldRun)).mpr ⟨watches _ rfl _ _, ?_⟩
  rw [ensures_pure]
  exact reached _ _

theorem ensures_followCallback (watches : ∀ world request, regime.watch world request)
    (writable : world.store.failingWrites = false)
    (heldRun : world.store.runs.get? stepRun.runId = some run) (sameId : run.id = stepRun.runId)
    (result : StepResult) {good : CallbackOutcome → World → Prop}
    {bad : EngineFault → World → Prop}
    (late : run.status.isTerminal = true → ∀ summary,
      world.store.Sums (run.summarized summary) → ∀ log clock,
      good ⟨result, none, false, run.status⟩
        ⟨world.store.withRun (run.summarized summary), log, clock⟩)
    (passed : run.status.isTerminal = false → result.passed? = some true → ∀ log clock,
      good ⟨result, some (resumePoint run result.stepOrder), false, run.status⟩
        ⟨world.store, log, clock⟩)
    (failed : run.status.isTerminal = false → result.passed? ≠ some true →
      ∀ closed, run.Closes .failed result.error closed → world.store.Sums closed → ∀ log clock,
      good ⟨result, none, false, closed.status⟩ ⟨world.store.withRun closed, log, clock⟩) :
    Ensures regime (followCallback stepRun result) world good bad := by
  simp only [followCallback, ensures_bind, ensures_log]
  refine ⟨watches _ _, fun time => ?_⟩
  refine (ensures_ask (Store.answer_run heldRun)).mpr ⟨watches _ _, ?_⟩
  have always : ∀ world request, Store.Any world.store → regime.watch world request :=
    fun world request _ => watches world request
  rw [ensures_ite]
  refine ⟨fun closed => ?_, fun isOpen => ?_⟩
  · rw [ensures_bind]
    apply ensures_storeSummary always heldRun sameId trivial
    intro summary sums log clock
    have heldAfter := world.store.withRun_get? (run.summarized summary)
    rw [(run.keeps_summarized summary).id, sameId] at heldAfter
    rw [ensures_bind, ensures_pure, ensures_bind]
    refine (ensures_ask (Store.answer_run heldAfter)).mpr ⟨watches _ _, ?_⟩
    exact late closed summary sums _ _
  · have isOpen : run.status.isTerminal = false := by simpa using isOpen
    rw [ensures_ite]
    refine ⟨fun hasPassed => ?_, fun notPassed => ?_⟩
    · rw [ensures_bind, ensures_pure, ensures_bind]
      refine (ensures_ask (Store.answer_run heldRun)).mpr ⟨watches _ _, ?_⟩
      exact passed isOpen hasPassed _ _
    · rw [ensures_bind, ← sameId]
      rw [← sameId] at heldRun
      refine ensures_closeRun always heldRun trivial writable isOpen (by rintro ⟨⟩)
        fun closed closes => ⟨trivial, fun sums log clock => ?_⟩
      have heldAfter := world.store.withRun_get? closed
      rw [closes.id] at heldAfter
      rw [ensures_bind, ensures_pure, ensures_bind]
      refine (ensures_ask (Store.answer_run heldAfter)).mpr ⟨watches _ _, ?_⟩
      exact failed isOpen notPassed closed closes sums _ _

/-- A fault that a callback brings up makes the step fail, and the run with it if that is open. -/
theorem ensures_recoverCallback (watches : ∀ world request, regime.watch world request)
    (writable : world.store.failingWrites = false)
    (held : world.store.stepRuns.get? stepRun.id = some stepRun)
    (running : stepRun.status = .running)
    (heldRun : world.store.runs.get? stepRun.runId = some run) (sameId : run.id = stepRun.runId)
    (fault : EngineFault) {good : CallbackOutcome → World → Prop}
    {bad : EngineFault → World → Prop}
    (late : run.status.isTerminal = true → ∀ outcome ended middle summary log clock,
      Ends world.store stepRun
        (.unexpected (world.store.issuesOf stepRun.id) fault stepRun.output) ended middle →
      middle.Sums (run.summarized summary) → outcome.resumeFrom = none →
      good outcome ⟨middle.withRun (run.summarized summary), log, clock⟩)
    (failed : run.status.isTerminal = false → ∀ outcome ended middle closed log clock,
      Ends world.store stepRun
        (.unexpected (world.store.issuesOf stepRun.id) fault stepRun.output) ended middle →
      run.Closes .failed (some genericFailure) closed → middle.Sums closed →
      outcome.resumeFrom = none → good outcome ⟨middle.withRun closed, log, clock⟩) :
    Ensures regime (recoverCallback stepRun fault) world good bad := by
  have always : ∀ world request, Store.Any world.store → regime.watch world request :=
    fun world request _ => watches world request
  have work := atWork_of_held watches writable held
  simp only [recoverCallback, ensures_bind]
  refine (ensures_ask (Store.answer_run heldRun)).mpr ⟨watches _ _, ?_⟩
  rw [ensures_ite]
  refine ⟨fun closed => ?_, fun isOpen => ?_⟩
  · rw [ensures_bind]
    refine ensures_failStep work running fault fun ended after ends => ⟨trivial, ?_⟩
    obtain ⟨findings, issues, rewrites⟩ := ends.rewrites
    rw [ensures_bind]
    have heldMiddle : after.store.runs.get? stepRun.runId = some run := by
      rw [rewrites.runs, heldRun]
    apply ensures_storeSummary always heldMiddle sameId trivial
    intro summary sums log clock
    have heldAfter := after.store.withRun_get? (run.summarized summary)
    rw [(run.keeps_summarized summary).id, sameId] at heldAfter
    have heldEnded : (after.store.withRun (run.summarized summary)).stepRuns.get? stepRun.id =
        some ended := by
      rw [← ends.id]
      exact rewrites.get?_self
    refine (ensures_bind _ _).mpr
      ((ensures_ask (Store.answer_stepRun heldEnded)).mpr ⟨watches _ _, ?_⟩)
    refine (ensures_bind _ _).mpr
      ((ensures_ask (Store.answer_run heldAfter)).mpr ⟨watches _ _, ?_⟩)
    exact late closed _ ended _ _ _ _ ends sums rfl
  · have isOpen : run.status.isTerminal = false := by simpa using isOpen
    rw [ensures_bind, failRun, ensures_bind, ensures_tryCatch]
    refine ensures_failStep work running fault fun ended after ends => ⟨trivial, ?_⟩
    obtain ⟨findings, issues, rewrites⟩ := ends.rewrites
    have heldMiddle : after.store.runs.get? run.id = some run := by
      rw [rewrites.runs, sameId, heldRun]
    rw [← sameId]
    refine ensures_closeRun always heldMiddle trivial (rewrites.failingWrites.trans writable) isOpen
      (by rintro ⟨⟩) fun closed closes => ⟨trivial, fun sums log clock => ?_⟩
    have heldAfter := after.store.withRun_get? closed
    rw [closes.id] at heldAfter
    have heldEnded : (after.store.withRun closed).stepRuns.get? stepRun.id = some ended := by
      rw [← ends.id]
      exact rewrites.get?_self
    rw [sameId] at heldAfter ⊢
    refine (ensures_bind _ _).mpr
      ((ensures_ask (Store.answer_stepRun heldEnded)).mpr ⟨watches _ _, ?_⟩)
    refine (ensures_bind _ _).mpr
      ((ensures_ask (Store.answer_run heldAfter)).mpr ⟨watches _ _, ?_⟩)
    exact failed isOpen _ ended _ closed _ _ ends closes sums rfl

variable {store : Store} {log : EventLog} {clock : Nat}

/-- A callback for a step run that is held is always taken in, and leaves a run that is closed summed
up. -/
theorem ensures_applyCallback (watches : ∀ world request, regime.watch world request)
    (writable : store.failingWrites = false)
    (held : store.stepRuns.get? stepRun.id = some stepRun)
    (heldRun : store.runs.get? stepRun.runId = some run) (sameId : run.id = stepRun.runId) :
    Ensures regime (applyCallback equipment stepRun envelope) ⟨store, log, clock⟩
      (fun outcome after => Applied equipment store run stepRun envelope outcome after.store ∧
        (store.SummedUp stepRun.runId → after.store.SummedUp stepRun.runId))
      fun _ _ => False := by
  have summedUp : ∀ {middle : Store} {later : Run}, later.id = run.id → middle.Sums later →
      store.SummedUp stepRun.runId → (middle.withRun later).SummedUp stepRun.runId := by
    intro middle later same sums _
    rw [← sameId, ← same]
    exact Store.summedUp_withRun sums
  rw [applyCallback, ensures_ite]
  refine ⟨fun terminal => ?_, fun open' => ?_⟩
  · exact ensures_ignoreCallback (fun _ _ _ _ => watches _ _) heldRun _ _
      fun log clock => ⟨.finished terminal rfl, id⟩
  · have isRunning : stepRun.status.isTerminal = false := by simpa using open'
    have running := running_of_not_terminal isRunning
    rw [ensures_bind, ensures_lift, program_ensures_run]
    refine ensures_completeContained (atWork_of_held watches writable held) running heldRun equipment
      envelope ⟨?_, ?_, ?_⟩
    · intro verdict ended after concluded ends
      refine ⟨trivial, ?_⟩
      have settles : (callbackConclusion equipment store run stepRun envelope).Settles
          (store.issuesOf stepRun.id) stepRun.output verdict verdict.error := by
        rw [callbackConclusion, ← concluded]
        exact .ended verdict
      obtain ⟨now, record⟩ := ends.record
      obtain ⟨findings, issues, rewrites⟩ := ends.rewrites
      have sameStatus : ended.status = verdict.status := by rw [record]; rfl
      have sameOrder : ended.stepOrder = stepRun.stepOrder := by rw [record]; rfl
      have sameError : ended.error = verdict.error := by rw [record]; rfl
      have decided : verdict.status = .passed ∨ verdict.status = .failed :=
        Conclusion.decided_ofCallback _ _ _ _ _ _ _ verdict concluded.symm
      have heldMiddle : after.store.runs.get? stepRun.runId = some run := by
        rw [rewrites.runs, heldRun]
      refine ensures_followCallback watches (rewrites.failingWrites.trans writable) heldMiddle
        sameId _ ?_ ?_ ?_
      · intro closed summary sums log clock
        exact ⟨.late isRunning closed settles ends rfl, summedUp rfl sums⟩
      · intro isOpen hasPassed log clock
        have passed : verdict.status = .passed := by
          rcases decided with passed | failed
          · exact passed
          · simp [StepResult.ofStepRun, sameStatus, failed] at hasPassed
        refine ⟨?_, fun _ => Store.summedUp_of_open heldMiddle isOpen⟩
        change Applied _ _ _ _ _ ⟨_, some (resumePoint run ended.stepOrder), _, _⟩ _
        rw [sameOrder]
        exact .passed isRunning isOpen settles passed ends
      · intro isOpen notPassed closed closes sums log clock
        have failed : verdict.status = .failed := by
          rcases decided with passed | failed
          · simp [StepResult.ofStepRun, sameStatus, passed] at notPassed
          · exact failed
        refine ⟨.failed isRunning isOpen settles failed ends ?_ rfl, summedUp closes.id sums⟩
        rw [← sameError]
        exact closes
    · intro output issues findings after concluded
      exact absurd concluded.symm (Conclusion.ofCallback_ne_pending _ _ _ _ _ _ _ _ _)
    · intro fault after concluded same
      have settles : (callbackConclusion equipment store run stepRun envelope).Settles
          (store.issuesOf stepRun.id) stepRun.output
          (.unexpected (store.issuesOf stepRun.id) fault stepRun.output) (some genericFailure) := by
        rw [callbackConclusion, ← concluded]
        exact .faulted fault
      obtain ⟨_, log, clock⟩ := after
      dsimp only at same
      subst same
      refine ensures_recoverCallback watches writable held running heldRun sameId fault ?_ ?_
      · intro closed outcome ended middle summary log clock ends sums resumes
        exact ⟨.late isRunning closed settles ends resumes, summedUp rfl sums⟩
      · intro isOpen outcome ended middle closed log clock ends closes sums resumes
        exact ⟨.failed isRunning isOpen settles rfl ends closes resumes, summedUp closes.id sums⟩

/-- A callback that is taken in is not noticed outside of its run. -/
theorem Applied.elsewhere {outcome : CallbackOutcome} {after : Store} (coherent : store.Coherent)
    (held : store.stepRuns.get? stepRun.id = some stepRun) (sameId : run.id = stepRun.runId)
    (applied : Applied equipment store run stepRun envelope outcome after) :
    Store.Elsewhere stepRun.runId store after ∧ after.Coherent ∧
      after.failingWrites = store.failingWrites := by
  obtain ⟨_, rfl⟩ | ⟨_, verdict, error, ended, middle, _, ends, reruns⟩ := applied.same_or_settles
  · exact ⟨.refl _ _, coherent, rfl⟩
  · obtain ⟨now, record⟩ := ends.record
    obtain ⟨findings, issues, rewrites⟩ := ends.rewrites
    have heldOld : store.stepRuns.get? ended.id = some stepRun := by rw [ends.id, held]
    have sameRun : ended.runId = stepRun.runId := by rw [record]; rfl
    have elsewhere := rewrites.elsewhere heldOld sameRun
    rw [sameRun] at elsewhere
    have coherentMiddle := rewrites.coherent coherent heldOld sameRun (by rw [record]; rfl)
    rcases reruns with ⟨rfl, _⟩ | ⟨later, keeps, _, rfl⟩
    · exact ⟨elsewhere, coherentMiddle, rewrites.failingWrites⟩
    · have ofRun : Store.Elsewhere stepRun.runId middle (middle.withRun later) := by
        rw [← sameId, ← keeps.id]
        exact middle.elsewhere_withRun later
      exact ⟨elsewhere.trans ofRun, coherentMiddle.withRun later, rewrites.failingWrites⟩

/-- Only a callback for a step of a run makes that run go on. -/
theorem Applied.runId {outcome : CallbackOutcome} {after : Store} {order : Int}
    (applied : Applied equipment store run stepRun envelope outcome after)
    (resumes : outcome.resumeFrom = some order) : outcome.result.runId = stepRun.runId := by
  cases applied with
  | finished _ none | late _ _ _ _ none | failed _ _ _ _ _ _ none =>
    rw [none] at resumes
    cases resumes
  | passed _ _ _ _ ends =>
    obtain ⟨now, record⟩ := ends.record
    rw [record]
    rfl

/-- A token is stale if the step run has another one. -/
theorem isStale_eq {own : String} (isKey : stepRun.output.jobKey? = some own) (key : String) :
    isStale stepRun key = (own != key) := by
  rw [isStale, isKey]

theorem isStale_own {own : String} (isKey : stepRun.output.jobKey? = some own) :
    isStale stepRun own = false := by
  rw [isStale_eq isKey]
  exact bne_self_eq_false own

def receiptsWith (receipts : List String) : Option String → List String
  | none => receipts
  | some key => key :: receipts

/-- What a callback with a token, or without one, leaves. -/
inductive Answered (equipment : Equipment) (store : Store) (run : Run) (stepRun : StepRun)
    (envelope : Envelope) (key? : Option String) : CallbackOutcome → Store → Prop
  /-- The token is stale, or has a receipt. -/
  | refused {key : String} {outcome : CallbackOutcome} (isKey : key? = some key)
      (refuses : isStale stepRun key = true ∨ key ∈ store.receipts)
      (resumes : outcome.resumeFrom = none) :
    Answered equipment store run stepRun envelope key? outcome store
  | taken {outcome : CallbackOutcome} {after : Store}
      (admitted : ∀ key, key? = some key → isStale stepRun key = false ∧ key ∉ store.receipts)
      (applied : Applied equipment (store.withReceipts (receiptsWith store.receipts key?)) run
        stepRun envelope outcome after) :
    Answered equipment store run stepRun envelope key? outcome after

/-- A callback is taken in if it comes without a token, or with that of the job for the first time. -/
theorem Answered.applied_of_own {key? : Option String} {outcome : CallbackOutcome} {after : Store}
    (answered : Answered equipment store run stepRun envelope key? outcome after)
    (token : key? = none ∨ key? = stepRun.output.jobKey?)
    (unused : ∀ key, key? = some key → key ∉ store.receipts) :
    Applied equipment (store.withReceipts (receiptsWith store.receipts key?)) run stepRun envelope
      outcome after := by
  cases answered with
  | refused isKey refuses =>
    rcases refuses with stale | known
    · rcases token with no | own
      · rw [isKey] at no
        cases no
      · rw [isStale_own (own.symm.trans isKey)] at stale
        cases stale
    · exact absurd known (unused _ isKey)
  | taken _ applied => exact applied

theorem answer_recordCallback_new {key : String} (new : key ∉ store.receipts) (id : Uuid)
    (now : Timestamp) :
    store.answer (.recordCallback key id now) =
      (.ok true, store.withReceipts (key :: store.receipts)) := by
  rw [Store.answer, Store.recordCallback, if_neg (by simpa using new)]
  rfl

theorem answer_recordCallback_known {key : String} (known : key ∈ store.receipts) (id : Uuid)
    (now : Timestamp) : store.answer (.recordCallback key id now) = (.ok false, store) := by
  rw [Store.answer, Store.recordCallback, if_pos (by simpa using known)]

/-- A callback for a step run that is held is always answered, and leaves a run that is closed summed
up. -/
theorem ensures_completeCallback_summedUp (watches : ∀ world request, regime.watch world request)
    (writable : store.failingWrites = false) {id : Uuid}
    (held : store.stepRuns.get? id = some stepRun) (ownId : stepRun.id = id)
    (heldRun : store.runs.get? stepRun.runId = some run) (sameId : run.id = stepRun.runId)
    (key? : Option String) :
    Ensures regime (completeCallback equipment id envelope key?) ⟨store, log, clock⟩
      (fun outcome after => Answered equipment store run stepRun envelope key? outcome after.store ∧
        (store.SummedUp stepRun.runId → after.store.SummedUp stepRun.runId))
      fun _ _ => False := by
  subst ownId
  rw [completeCallback, ensures_bind]
  refine (ensures_ask (Store.answer_stepRun held)).mpr ⟨watches _ _, ?_⟩
  cases key? with
  | none =>
    refine (ensures_applyCallback watches writable held heldRun sameId).imp
      (fun outcome after applied => ?_) fun _ _ impossible => impossible
    exact ⟨.taken (fun _ isKey => nomatch isKey) applied.1, applied.2⟩
  | some key =>
    dsimp only
    rw [ensures_ite]
    refine ⟨fun stale => ?_, fun notStale => ?_⟩
    · exact ensures_ignoreCallback (fun _ _ _ _ => watches _ _) heldRun _ _
        fun log clock => ⟨.refused rfl (Or.inl stale) rfl, id⟩
    · have admitted : isStale stepRun key = false := by simpa using notStale
      simp only [ensures_bind, ensures_now]
      refine ⟨watches _ _, fun stamp clock => ?_⟩
      by_cases known : key ∈ store.receipts
      · refine (ensures_ask (answer_recordCallback_known known _ _)).mpr ⟨watches _ _, ?_⟩
        simp only [Bool.false_eq_true, if_false]
        exact ensures_ignoreCallback (fun _ _ _ _ => watches _ _) heldRun _ _
          fun log clock => ⟨.refused rfl (Or.inr known) rfl, id⟩
      · refine (ensures_ask (answer_recordCallback_new known _ _)).mpr ⟨watches _ _, ?_⟩
        simp only [if_true]
        rw [applyWithReceipt, ensures_tryCatch]
        have writableAfter : (store.withReceipts (key :: store.receipts)).failingWrites = false :=
          writable
        refine (ensures_applyCallback watches writableAfter held heldRun sameId).imp
          (fun outcome after applied => ?_) fun _ _ impossible => impossible.elim
        refine ⟨.taken ?_ applied.1, applied.2⟩
        rintro _ ⟨⟩
        exact ⟨admitted, known⟩

/-- A callback for a step run that is held is always answered. -/
theorem ensures_completeCallback (watches : ∀ world request, regime.watch world request)
    (writable : store.failingWrites = false) {id : Uuid}
    (held : store.stepRuns.get? id = some stepRun) (ownId : stepRun.id = id)
    (heldRun : store.runs.get? stepRun.runId = some run) (sameId : run.id = stepRun.runId)
    (key? : Option String) :
    Ensures regime (completeCallback equipment id envelope key?) ⟨store, log, clock⟩
      (fun outcome after => Answered equipment store run stepRun envelope key? outcome after.store)
      fun _ _ => False :=
  (ensures_completeCallback_summedUp watches writable held ownId heldRun sameId key?).imp
    (fun _ _ answered => answered.1) fun _ _ impossible => impossible

theorem ensures_completeCallback_missing (watches : ∀ world request, regime.watch world request)
    {id : Uuid} (missing : store.stepRuns.get? id = none) (key? : Option String)
    {good : CallbackOutcome → World → Prop} {bad : EngineFault → World → Prop}
    (reached : ∀ fault, bad fault ⟨store, log, clock⟩) :
    Ensures regime (completeCallback equipment id envelope key?) ⟨store, log, clock⟩ good bad := by
  have answered : store.answer (.stepRun id) = (.error (.stepRunNotFound id), store) := by
    rw [Store.answer, Store.stepRun, missing]
  rw [completeCallback, ensures_bind, ensures_store, answered]
  exact ⟨watches _ _, reached _⟩

/-- Whatever way a callback for a step run that is held takes, it is answered. -/
theorem answered_of_runs {mayAnswer : (request : Request) → request.Answer → Prop} {after : World}
    {id : Uuid} {key? : Option String} {requests : List Request}
    {result : Except EngineFault CallbackOutcome} (coherent : world.store.Coherent)
    (writable : world.store.failingWrites = false)
    (held : world.store.stepRuns.get? id = some stepRun)
    (runs : (completeCallback equipment id envelope key?).run.Runs mayAnswer world requests
      (some result) after) :
    ∃ run outcome, world.store.runs.get? stepRun.runId = some run ∧ run.id = stepRun.runId ∧
      result = .ok outcome ∧
      Answered equipment world.store run stepRun envelope key? outcome after.store := by
  obtain rfl := coherent.stepRunIds _ _ held
  obtain ⟨run, heldRun⟩ := coherent.rooted _ _ held
  have sameId := coherent.runIds _ _ heldRun
  obtain ⟨outcome, isOk, answered⟩ := runs.succeeds (ensures_completeCallback (fun _ _ => trivial)
    writable held rfl heldRun sameId key?)
  exact ⟨run, outcome, heldRun, sameId, isOk, answered⟩

end Callbacks

/-! ### Cancelling -/

/-- What a request to cancel a run leaves. -/
inductive Canceled (store : Store) (run : Run) : Store → Prop
  | already (closed : run.status.isTerminal = true) : Canceled store run store
  | closed {closed : Run} (isOpen : run.status.isTerminal = false)
      (closes : run.flagged.Closes .canceled (some cancelMessage) closed) :
    Canceled store run (store.withRun closed)
  /-- A step is to be taken next, and that one finds the run cancelled. -/
  | flagged (status : run.status = .running)
      (busy : ∀ stepRun ∈ store.stepRunsOf run.id,
        ¬ (stepRun.status = .running ∧ stepRun.awaitsJob = true)) :
    Canceled store run (store.withRun run.flagged)

theorem ensures_cancel_missing {regime : Regime} {world : World} {id : Uuid}
    (watches : ∀ world request, regime.watch world request)
    (missing : world.store.runs.get? id = none)
    {good : RunOutcome → World → Prop} {bad : EngineFault → World → Prop}
    (reached : ∀ fault, bad fault world) : Ensures regime (cancel id) world good bad := by
  rw [cancel, ensures_bind, ensures_store, Store.answer_run_missing missing]
  exact ⟨watches _ _, reached _⟩

/-- Cancelling a run that is closed does nothing and calls nothing. -/
theorem ensures_cancel_closed {regime : Regime} {world : World} {run : Run}
    (watches : ∀ request : Request, request.isOutside = false → ∀ log clock,
      regime.watch ⟨world.store, log, clock⟩ request)
    (held : world.store.runs.get? run.id = some run) (closed : run.status.isTerminal = true)
    {good : RunOutcome → World → Prop} {bad : EngineFault → World → Prop}
    (reached : good (.ofRun run) world) :
    Ensures regime (cancel run.id) world good bad := by
  rw [cancel, ensures_bind]
  refine (ensures_ask (Store.answer_run held)).mpr ⟨watches _ rfl _ _, ?_⟩
  rw [if_pos closed]
  exact reached

/-- A request to cancel a run that is held is always met, and leaves the run summed up if it is
closed. -/
theorem ensures_cancel_summedUp {regime : Regime} {store : Store} {log : EventLog} {clock : Nat} {run : Run}
    (watches : ∀ world request, regime.watch world request)
    (writable : store.failingWrites = false) (held : store.runs.get? run.id = some run) :
    Ensures regime (cancel run.id) ⟨store, log, clock⟩
      (fun _ after => Canceled store run after.store ∧
        (store.SummedUp run.id → after.store.SummedUp run.id)) fun _ _ => False := by
  have always : ∀ world request, Store.Any world.store → regime.watch world request :=
    fun world request _ => watches world request
  rw [cancel, ensures_bind]
  refine (ensures_ask (Store.answer_run held)).mpr ⟨watches _ _, ?_⟩
  rw [ensures_ite]
  refine ⟨fun closed => ⟨.already closed, id⟩, fun open' => ?_⟩
  have isOpen : run.status.isTerminal = false := by simpa using open'
  simp only [ensures_bind]
  refine (ensures_ask (Store.answer_flagCancel held)).mpr ⟨watches _ _, ?_⟩
  rw [ensures_log]
  refine ⟨watches _ _, fun time => ?_⟩
  refine (ensures_ask rfl).mpr ⟨watches _ _, ?_⟩
  rw [ensures_ite]
  refine ⟨fun _ => ?_, fun goesOn => ?_⟩
  · have heldFlagged := store.withRun_get? run.flagged
    refine ensures_closeRun always heldFlagged trivial writable isOpen (by rintro ⟨⟩)
      fun closed closes => ⟨trivial, fun sums log clock => ?_⟩
    rw [Store.withRun_withRun _ closes.id]
    refine ⟨.closed isOpen closes, fun _ => ?_⟩
    have sameId : closed.id = run.id := closes.id
    rw [← sameId]
    exact Store.summedUp_withRun sums
  · rw [ensures_pure]
    simp only [Bool.or_eq_true, decide_eq_true_eq, not_or] at goesOn
    obtain ⟨begun, busy⟩ := goesOn
    have heldFlagged := store.withRun_get? run.flagged
    refine ⟨.flagged ?_ ?_, fun _ => Store.summedUp_of_open heldFlagged isOpen⟩
    · cases status : run.status with
      | pending => exact absurd status begun
      | running => rfl
      | succeeded | failed | canceled =>
        rw [status] at isOpen
        cases isOpen
    · rintro stepRun member ⟨running, awaits⟩
      apply busy
      rw [List.any_eq_true]
      refine ⟨stepRun, member, ?_⟩
      rw [running, awaits]
      rfl

/-- A request to cancel a run that is held is always met. -/
theorem ensures_cancel {regime : Regime} {store : Store} {log : EventLog} {clock : Nat} {run : Run}
    (watches : ∀ world request, regime.watch world request)
    (writable : store.failingWrites = false) (held : store.runs.get? run.id = some run) :
    Ensures regime (cancel run.id) ⟨store, log, clock⟩
      (fun _ after => Canceled store run after.store) fun _ _ => False :=
  (ensures_cancel_summedUp watches writable held).imp (fun _ _ canceled => canceled.1)
    fun _ _ impossible => impossible

end Vetting.Execution
