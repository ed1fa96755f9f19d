import Vetting.Proofs.Run.Executing
import Vetting.Proofs.Step.Tally

/-!
Contract: the counters of steps and their findings while a run is executed.

Owns:
- `Store.Audited`: what has ended counts its findings, and so does what waits for a job;
- `Store.Prepared`: a run may be executed without a step taking over counters of findings
  that are gone;
- an execution leaves the store audited, wherever it is cut short.

Does not own: the verdicts of single steps (`Vetting.Proofs.Step.Tally`); callbacks
(`Vetting.Proofs.Run.Tallying`).

Counters are trusted for some step runs and not for others.  Beginning a step again takes its
findings away and leaves it the counters of the attempt before.
-/

namespace Vetting

open Execution
open Store (Rewrites Ends)

/-- A step run counts its findings, as far as it has to by now. -/
structure StepRun.Accounted (trusted : Prop) (stepRun : StepRun) (issues : List Issue) : Prop where
  counts : stepRun.status.isTerminal = true →
    stepRun.output.severityCounts = countIssues issues
  tallies : trusted → stepRun.status.isTerminal = true ∨ stepRun.awaitsJob = true →
    stepRun.output.Tallies issues
  unreported : stepRun.status = .running → stepRun.output.outputAssertions = .zero

/-- A step run that is at work has nothing to count yet. -/
theorem StepRun.accounted_of_idle {trusted : Prop} {stepRun : StepRun}
    (running : stepRun.status = .running) (idle : stepRun.awaitsJob = false)
    (unreported : stepRun.output.outputAssertions = .zero) (issues : List Issue) :
    stepRun.Accounted trusted issues where
  counts := fun terminal => by
    rw [running] at terminal
    cases terminal
  tallies := fun _ counted => by
    rw [running, idle] at counted
    rcases counted with terminal | awaits
    · cases terminal
    · cases awaits
  unreported := fun _ => unreported

namespace Store

/-- The step runs count their findings, as far as they are trusted to. -/
structure Audited (trusted : Uuid → Prop) (store : Store) : Prop where
  coherent : store.Coherent
  writable : store.failingWrites = false
  accounted : ∀ id stepRun, store.stepRuns.get? id = some stepRun →
    stepRun.Accounted (trusted id) (store.issuesOf id)

namespace Audited

variable {trusted : Uuid → Prop} {store after : Store}

theorem withRun (audited : store.Audited trusted) (run : Run) :
    (store.withRun run).Audited trusted :=
  ⟨audited.coherent.withRun run, audited.writable, audited.accounted⟩

theorem withReceipts (audited : store.Audited trusted) (receipts : List String) :
    (store.withReceipts receipts).Audited trusted :=
  ⟨audited.coherent.withReceipts receipts, audited.writable, audited.accounted⟩

theorem rewrites (audited : store.Audited trusted) {stepRun old : StepRun}
    {findings : List Finding} (rewrites : Rewrites store stepRun findings after)
    (held : store.stepRuns.get? stepRun.id = some old) (sameRun : stepRun.runId = old.runId)
    (sameKey : stepRun.stepKey = old.stepKey)
    (accounted : stepRun.Accounted (trusted stepRun.id) (findings.map Finding.issue)) :
    after.Audited trusted where
  coherent := rewrites.coherent audited.coherent held sameRun sameKey
  writable := rewrites.failingWrites.trans audited.writable
  accounted := by
    intro id other heldOther
    rw [rewrites.stepRuns] at heldOther
    obtain ⟨rfl, rfl⟩ | ⟨different, before⟩ := Table.get?_set_cases heldOther
    · rw [rewrites.issuesOf_self]
      exact accounted
    · rw [issuesOf, rewrites.findings, if_neg different]
      exact audited.accounted id other before

theorem ends (audited : store.Audited trusted) {stepRun ended : StepRun} {verdict : Verdict}
    (ends : Ends store stepRun verdict ended after)
    (held : store.stepRuns.get? stepRun.id = some stepRun)
    (terminal : verdict.status.isTerminal = true)
    (accounted : verdict.Accounted (trusted stepRun.id)) : after.Audited trusted := by
  obtain ⟨now, rfl⟩ := ends.record
  obtain ⟨findings, issues, rewrites⟩ := ends.rewrites
  refine audited.rewrites rewrites held rfl rfl ⟨fun _ => ?_, fun isTrusted _ => ?_, fun running => ?_⟩
  · rw [issues]
    exact accounted.counts
  · rw [issues]
    exact accounted.tallies isTrusted
  · have status : verdict.status = .running := running
    rw [status] at terminal
    cases terminal

theorem putStepRun (audited : store.Audited trusted) {run : Run} {created : StepRun}
    (heldRun : store.runs.get? created.runId = some run)
    (fresh : store.stepRuns.get? created.id = none)
    (absent : store.stepRunOf? created.runId created.stepKey = none)
    (accounted : created.Accounted (trusted created.id) (store.issuesOf created.id)) :
    (store.putStepRun created).Audited trusted where
  coherent := audited.coherent.putStepRun heldRun fresh absent
  writable := audited.writable
  accounted := by
    intro id other heldOther
    obtain ⟨rfl, rfl⟩ | ⟨_, before⟩ := Table.get?_set_cases heldOther
    · exact accounted
    · exact audited.accounted id other before

end Audited

/-- Each step run of a run that was cut short, if it is trusted, has counted nothing yet, or its job is
handed over when it is begun again. -/
def Prepared (mayAnswer : (request : Request) → request.Answer → Prop) (equipment : Equipment)
    (trusted : Uuid → Prop) (run : Run) (store : Store) : Prop :=
  ∀ id stepRun, store.stepRuns.get? id = some stepRun → stepRun.runId = run.id →
    stepRun.status = .running → stepRun.awaitsJob = false → trusted id →
    stepRun.output.Tallies [] ∨
      ∀ step ∈ run.steps, step.key = stepRun.stepKey → HandsOver mayAnswer equipment step

section Preparing

variable {mayAnswer : (request : Request) → request.Answer → Prop} {equipment : Equipment}
  {trusted : Uuid → Prop} {run : Run} {store after : Store}

/-- Rewriting one step run is seen in that one only. -/
theorem Prepared.rewrites {stepRun : StepRun} {findings : List Finding}
    (prepared : store.Prepared mayAnswer equipment trusted run)
    (rewrites : Rewrites store stepRun findings after)
    (own : stepRun.status = .running → stepRun.awaitsJob = false → trusted stepRun.id →
      stepRun.output.Tallies [] ∨
        ∀ step ∈ run.steps, step.key = stepRun.stepKey → HandsOver mayAnswer equipment step) :
    after.Prepared mayAnswer equipment trusted run := by
  intro id other heldOther ofRun running idle isTrusted
  rw [rewrites.stepRuns] at heldOther
  obtain ⟨rfl, rfl⟩ | ⟨_, before⟩ := Table.get?_set_cases heldOther
  · exact own running idle isTrusted
  · exact prepared id other before ofRun running idle isTrusted

theorem Prepared.putStepRun {created : StepRun}
    (prepared : store.Prepared mayAnswer equipment trusted run) (empty : created.output = .empty) :
    (store.putStepRun created).Prepared mayAnswer equipment trusted run := by
  intro id other heldOther ofRun running idle isTrusted
  obtain ⟨rfl, rfl⟩ | ⟨_, before⟩ := Table.get?_set_cases heldOther
  · rw [empty]
    exact Or.inl StepOutput.tallies_empty
  · exact prepared id other before ofRun running idle isTrusted

end Preparing

/-- A run that is held in an audited store may be executed. -/
structure Resumable (mayAnswer : (request : Request) → request.Answer → Prop)
    (equipment : Equipment) (trusted : Uuid → Prop) (run : Run) (store : Store) : Prop where
  audited : store.Audited trusted
  held : store.runs.get? run.id = some run
  prepared : Prepared mayAnswer equipment trusted run store

end Store

namespace Execution

variable {mayAnswer : (request : Request) → request.Answer → Prop} {equipment : Equipment}
  {trusted : Uuid → Prop} {run : Run} {submission : Submission} {step : Step}

/-- The store is audited whenever something is asked for. -/
def auditing (mayAnswer : (request : Request) → request.Answer → Prop) (trusted : Uuid → Prop) :
    Regime :=
  ⟨mayAnswer, fun world _ => world.store.Audited trusted⟩

theorem auditing_watches (world : World) (request : Request)
    (audited : world.store.Audited trusted) : (auditing mayAnswer trusted).watch world request :=
  audited

/-! ### A step that has begun -/

/-- A step run is at work and has no findings. -/
structure Begun (run : Run) (step : Step) (store : Store) (stepRun : StepRun) : Prop where
  held : store.stepRuns.get? stepRun.id = some stepRun
  ofRun : stepRun.runId = run.id
  ofStep : stepRun.stepKey = step.key
  running : stepRun.status = .running
  idle : stepRun.awaitsJob = false
  unrecorded : store.issuesOf stepRun.id = []

theorem Begun.atWork {store : Store} {stepRun : StepRun} (begun : Begun run step store stepRun)
    (audited : store.Audited trusted) :
    AtWork (auditing mayAnswer trusted) (Store.Audited trusted) store stepRun where
  watches := auditing_watches
  writable := audited.writable
  held := begun.held
  stays := fun _ _ rewrites => audited.rewrites rewrites begun.held rfl rfl
    (StepRun.accounted_of_idle begun.running begun.idle
      ((audited.accounted _ _ begun.held).unreported begun.running) _)

theorem ensures_beginStep_resumable {world : World}
    (resumable : world.store.Resumable mayAnswer equipment trusted run) (step : Step) :
    Ensures (auditing mayAnswer trusted) (beginStep run.id step) world
      (fun handle after => after.store.Resumable mayAnswer equipment trusted run ∧
        (handle.execute = true → Begun run step after.store handle.stepRun))
      fun _ _ => False := by
  have audited := resumable.audited
  cases found : world.store.stepRunOf? run.id step.key with
  | none =>
    apply ensures_beginStep_created auditing_watches audited found
    intro now
    have unheld := world.store.get?_freshId
    have unrecorded : world.store.issuesOf world.store.freshId = [] := by
      rw [Store.issuesOf, audited.coherent.recorded _ unheld]
      rfl
    have heldCreated : (world.store.putStepRun
        (.begun world.store.freshId run.id step now)).stepRuns.get? world.store.freshId =
          some (.begun world.store.freshId run.id step now) :=
      (Table.get?_set _ _ _ _).trans (if_pos rfl)
    have auditedAfter : (world.store.putStepRun
        (.begun world.store.freshId run.id step now)).Audited trusted :=
      audited.putStepRun resumable.held unheld found (StepRun.accounted_of_idle rfl rfl rfl _)
    refine ⟨auditedAfter, fun log clock => ⟨⟨auditedAfter, resumable.held, ?_⟩, fun _ => ?_⟩⟩
    · exact resumable.prepared.putStepRun rfl
    · exact ⟨heldCreated, rfl, rfl, rfl, rfl, unrecorded⟩
  | some stepRun =>
    obtain ⟨held, ofRun, ofStep⟩ := audited.coherent.held_of_stepRunOf? found
    by_cases rests : stepRun.status.isTerminal = true ∨ stepRun.awaitsJob = true
    · apply ensures_beginStep_existing auditing_watches audited found rests
      intro clock
      exact ⟨resumable, by rintro ⟨⟩⟩
    · rw [not_or, Bool.not_eq_true, Bool.not_eq_true] at rests
      obtain ⟨goesOn, idle⟩ := rests
      have running := running_of_not_terminal goesOn
      apply ensures_beginStep_restarted auditing_watches audited found held running idle
      intro now after rewrites
      have unreported := (audited.accounted _ _ held).unreported running
      have auditedAfter : after.store.Audited trusted := audited.rewrites rewrites held rfl rfl
        (@StepRun.accounted_of_idle _ (restarted stepRun now) running idle unreported _)
      have heldAfter : after.store.runs.get? run.id = some run := by
        rw [rewrites.runs, resumable.held]
      refine ⟨auditedAfter, ⟨auditedAfter, heldAfter, ?_⟩, fun _ => ?_⟩
      · apply resumable.prepared.rewrites rewrites
        intro _ _ isTrusted
        exact resumable.prepared _ stepRun held ofRun running idle isTrusted
      · exact ⟨rewrites.get?_self, ofRun, ofStep, running, idle, rewrites.issuesOf_self⟩

/-! ### Carrying out a step -/

/-- How far a run has come is told, and if the next step may follow, the run may still be executed. -/
structure Advanced (mayAnswer : (request : Request) → request.Answer → Prop)
    (equipment : Equipment) (trusted : Uuid → Prop) (run : Run) (progress? : Option Progress)
    (after : World) : Prop where
  audited : after.store.Audited trusted
  held : after.store.runs.get? run.id = some run
  goesOn : progress? = none → after.store.Prepared mayAnswer equipment trusted run

/-- A fault has come up.  The step run at work, if there is one, has nothing to count, or is not
trusted to. -/
structure Faltered (trusted : Uuid → Prop) (run : Run) (interruption : Interruption)
    (after : World) : Prop where
  audited : after.store.Audited trusted
  held : after.store.runs.get? run.id = some run
  atWork : ∀ stepRun, interruption.current = some stepRun →
    ∃ step, Begun run step after.store stepRun ∧ (trusted stepRun.id → stepRun.output.Tallies [])

theorem ensures_carryOut_resumable {world : World} {stepRun : StepRun}
    (unassertive : Unassertive mayAnswer)
    (resumable : world.store.Resumable mayAnswer equipment trusted run)
    (begun : Begun run step world.store stepRun) (member : step ∈ run.steps) :
    Ensures (auditing mayAnswer trusted)
      (during (some stepRun) do
        let signals ← collectSignals run.id step.order
        return progressAfter
          (← dispatch equipment ⟨run, step, stepRun, submission, signals⟩)) world
      (Advanced mayAnswer equipment trusted run) (Faltered trusted run) := by
  have audited := resumable.audited
  have work := @Begun.atWork mayAnswer _ _ _ _ _ begun audited
  have prepared : trusted stepRun.id →
      stepRun.output.Tallies [] ∨ HandsOver mayAnswer equipment step := fun isTrusted =>
    (resumable.prepared _ _ begun.held begun.ofRun begun.running begun.idle isTrusted).imp_right
      fun handsOver => handsOver step member begun.ofStep.symm
  have goesOn : stepRun.status.isTerminal = false := by
    rw [begun.running]
    rfl
  rw [ensures_during, ensures_bind]
  apply ensures_collectSignals work
  rw [ensures_bind]
  simp only [ensures_pure]
  have concluded : ∀ conclusion, Concludes mayAnswer equipment
      ⟨run, step, stepRun, submission, world.store.signalsBefore run.id step.order⟩
      (world.store.issuesOf stepRun.id) conclusion →
      conclusion.Decided ∧ conclusion.Accounted (trusted stepRun.id) stepRun.output := by
    intro conclusion concludes
    rw [begun.unrecorded] at concludes
    exact ⟨concludes.decided, concludes.accounted unassertive prepared⟩
  refine ensures_dispatch work begun.running ?_ concluded ⟨?_, ?_, ?_⟩
  · intro output findings after midway rewrites
    obtain ⟨unreported, tallies⟩ := midway.accounted
    refine audited.rewrites rewrites begun.held rfl rfl
      ⟨fun terminal => ?_, fun _ counted => ?_, fun _ => unreported⟩
    · exact absurd terminal (by simp [goesOn])
    · exact tallies (counted.resolve_left (by simp [goesOn]))
  · rintro verdict ended after ⟨decided, accounted⟩ ends
    have terminal := terminal_of_decided (decided verdict rfl)
    have auditedAfter := audited.ends ends begun.held terminal accounted
    obtain ⟨now, rfl⟩ := ends.record
    obtain ⟨findings, issues, rewrites⟩ := ends.rewrites
    refine ⟨auditedAfter, auditedAfter, by rw [rewrites.runs, resumable.held], fun _ => ?_⟩
    apply resumable.prepared.rewrites rewrites
    intro running
    have status : verdict.status = .running := running
    rw [status] at terminal
    cases terminal
  · rintro output issues findings after ⟨_, unreported, tallies⟩ recorded rewrites
    have auditedAfter : after.store.Audited trusted := by
      refine audited.rewrites rewrites begun.held rfl rfl
        ⟨fun terminal => ?_, fun isTrusted _ => ?_, fun _ => unreported⟩
      · exact absurd terminal (by simp [goesOn])
      · rw [recorded]
        exact tallies isTrusted
    rw [progressAfter_of_running ((stepRun.leaving_status output).trans begun.running)]
    exact ⟨auditedAfter, auditedAfter, by rw [rewrites.runs, resumable.held], by rintro ⟨⟩⟩
  · rintro fault after ⟨_, tallies⟩ same
    refine ⟨same ▸ audited, same ▸ resumable.held, ?_⟩
    rintro _ ⟨⟩
    exact ⟨step, same ▸ begun, tallies⟩

theorem ensures_takeStep_resumable {world : World} (unassertive : Unassertive mayAnswer)
    (resumable : world.store.Resumable mayAnswer equipment trusted run) (member : step ∈ run.steps) :
    Ensures (auditing mayAnswer trusted) (takeStep equipment run submission step) world
      (Advanced mayAnswer equipment trusted run) (Faltered trusted run) := by
  rw [takeStep, ensures_bind, ensures_during]
  refine (ensures_beginStep_resumable resumable step).imp ?_ fun _ _ => False.elim
  rintro handle after ⟨resumableAfter, begins⟩
  rw [ensures_ite]
  refine ⟨fun executes => ?_, fun _ => ?_⟩
  · exact ensures_carryOut_resumable unassertive resumableAfter (begins executes) member
  · exact ⟨resumableAfter.audited, resumableAfter.held, fun _ => resumableAfter.prepared⟩

theorem ensures_takeSteps_resumable {world : World} {steps : List Step}
    (unassertive : Unassertive mayAnswer)
    (resumable : world.store.Resumable mayAnswer equipment trusted run)
    (members : ∀ step ∈ steps, step ∈ run.steps) :
    Ensures (auditing mayAnswer trusted) (takeSteps equipment run submission steps) world
      (fun progress after => Advanced mayAnswer equipment trusted run (some progress) after)
      (Faltered trusted run) := by
  induction steps generalizing world with
  | nil => exact ⟨resumable.audited, resumable.held, by rintro ⟨⟩⟩
  | cons step rest inductionHypothesis =>
    simp only [takeSteps, ensures_bind, ensures_during]
    refine (ensures_ask (Store.answer_cancelFlag resumable.held)).mpr ⟨resumable.audited, ?_⟩
    rw [ensures_ite]
    refine ⟨fun _ => ⟨resumable.audited, resumable.held, by rintro ⟨⟩⟩, fun _ => ?_⟩
    rw [ensures_bind]
    refine (ensures_takeStep_resumable unassertive resumable (members step (.head _))).imp ?_
      fun _ _ faltered => faltered
    rintro progress? after ⟨audited, held, goesOn⟩
    cases progress? with
    | some progress => exact ⟨audited, held, by rintro ⟨⟩⟩
    | none =>
      exact inductionHypothesis ⟨audited, held, goesOn rfl⟩
        fun step later => members step (.tail _ later)

/-! ### Executing a run -/

theorem ensures_closeRun_audited {world : World} (audited : world.store.Audited trusted)
    (held : world.store.runs.get? run.id = some run) (isOpen : run.status.isTerminal = false)
    {status : RunStatus} (begun : status ≠ .pending) (error : Option String) :
    Ensures (auditing mayAnswer trusted) (closeRun run.id status error) world
      (fun _ after => after.store.Audited trusted) fun _ after => after.store.Audited trusted := by
  apply ensures_closeRun auditing_watches held audited audited.writable isOpen begun
  intro closed _
  exact ⟨audited.withRun closed, fun _ _ _ => audited.withRun closed⟩

theorem ensures_failRun_audited {world : World} {interruption : Interruption}
    (faltered : Faltered trusted run interruption world) (isOpen : run.status.isTerminal = false) :
    Ensures (auditing mayAnswer trusted) (failRun run.id interruption) world
      (fun _ after => after.store.Audited trusted) fun _ after => after.store.Audited trusted := by
  obtain ⟨audited, held, atWork⟩ := faltered
  obtain ⟨fault, current⟩ := interruption
  cases current with
  | none => exact ensures_closeRun_audited audited held isOpen (by rintro ⟨⟩) _
  | some stepRun =>
    obtain ⟨step, begun, tallies⟩ := atWork stepRun rfl
    have work := @Begun.atWork mayAnswer _ _ _ _ _ begun audited
    simp only [failRun, ensures_bind, ensures_tryCatch]
    apply ensures_failStep work begun.running fault
    intro ended after ends
    rw [begun.unrecorded] at ends
    have auditedAfter : after.store.Audited trusted :=
      audited.ends ends begun.held rfl (Verdict.accounted_failing rfl tallies)
    obtain ⟨findings, _, rewrites⟩ := ends.rewrites
    have heldAfter : after.store.runs.get? run.id = some run := by rw [rewrites.runs, held]
    exact ⟨auditedAfter,
      ensures_closeRun_audited auditedAfter heldAfter isOpen (by rintro ⟨⟩) _⟩

/-- A run that has been entered is executed from there on. -/
theorem ensures_execute_resumable {world : World} {runId : Uuid} {resumeFrom : Option Int}
    (unassertive : Unassertive mayAnswer)
    (enters : Ensures (auditing mayAnswer trusted) (enterRun runId resumeFrom) world
      (fun outcome? after => outcome? = none ∧ ∃ entered : Run, entered.id = runId ∧
        entered.status = .running ∧ after.store.Resumable mayAnswer equipment trusted entered)
      fun _ _ => False) :
    Ensures (auditing mayAnswer trusted) (execute equipment runId resumeFrom) world
      (fun _ after => after.store.Audited trusted) fun _ after => after.store.Audited trusted := by
  rw [execute, ensures_bind]
  refine enters.imp ?_ fun _ _ => False.elim
  rintro _ after ⟨rfl, entered, rfl, status, resumable⟩
  have isOpen : entered.status.isTerminal = false := by
    rw [status]
    rfl
  rw [ensures_bind]
  refine (ensures_ask (Store.answer_run resumable.held)).mpr ⟨resumable.audited, ?_⟩
  rw [ensures_bind, ensures_lift, program_ensures_run, drive, ensures_bind, ensures_during,
    ensures_store]
  refine ⟨resumable.audited, ?_⟩
  cases submitted : after.store.submissions.get? entered.submissionId with
  | none =>
    simp only [Store.answer, submitted]
    apply ensures_failRun_audited _ isOpen
    exact ⟨resumable.audited, resumable.held, by rintro _ ⟨⟩⟩
  | some submission =>
    simp only [Store.answer, submitted]
    refine (ensures_takeSteps_resumable unassertive resumable ?_).imp ?_ ?_
    · intro step member
      exact Run.mem_orderedSteps.mp (List.mem_filter.mp member).1
    · rintro progress last ⟨audited, held, _⟩
      cases progress with
      | completed => exact ensures_closeRun_audited audited held isOpen (by rintro ⟨⟩) _
      | failed error => exact ensures_closeRun_audited audited held isOpen (by rintro ⟨⟩) _
      | canceled => exact ensures_closeRun_audited audited held isOpen (by rintro ⟨⟩) _
      | pending => exact ensures_currentOutcome auditing_watches held audited audited
      | yielded => exact ensures_currentOutcome auditing_watches held audited audited
    · intro interruption last faltered
      exact ensures_failRun_audited faltered isOpen

/-- An execution leaves the store audited, and so it is at every request. -/
theorem ensures_execute_audited {world : World} {runId : Uuid} (resumeFrom : Option Int)
    (unassertive : Unassertive mayAnswer) (audited : world.store.Audited trusted)
    (prepared : ∀ run, world.store.runs.get? runId = some run →
      world.store.Prepared mayAnswer equipment trusted run) :
    Ensures (auditing mayAnswer trusted) (execute equipment runId resumeFrom) world
      (fun _ after => after.store.Audited trusted) fun _ after => after.store.Audited trusted := by
  have inside : ∀ (world : World) (request : Request), world.store.Audited trusted →
      request.isOutside = false → (auditing mayAnswer trusted).watch world request :=
    fun _ _ audited _ => audited
  cases held : world.store.runs.get? runId with
  | none =>
    cases resumeFrom with
    | none =>
      simp only [execute, enterRun, ensures_bind, ensures_now]
      refine ⟨audited, fun stamp clock => ?_⟩
      rw [ensures_store, Store.answer_startRun_missing held]
      exact ⟨audited, audited⟩
    | some order =>
      simp only [execute, enterRun, ensures_bind]
      rw [ensures_store, Store.answer_run_missing held]
      exact ⟨audited, audited⟩
  | some run =>
    have isPrepared := prepared run held
    obtain rfl := audited.coherent.runIds _ _ held
    cases resumeFrom with
    | none =>
      by_cases fresh : run.status = .pending
      · apply ensures_execute_resumable unassertive
        apply ensures_enterRun_start auditing_watches held audited fresh
        intro now
        have auditedAfter := audited.withRun (started run now)
        have heldAfter := world.store.withRun_get? (started run now)
        exact ⟨auditedAfter, fun log clock =>
          ⟨rfl, started run now, rfl, rfl, auditedAfter, heldAfter, isPrepared⟩⟩
      · exact ensures_execute_duplicate inside held audited fresh fun _ _ => audited
    | some order =>
      by_cases status : run.status = .running
      · apply ensures_execute_resumable unassertive
        apply ensures_enterRun_resume auditing_watches held audited status order
        intro log clock
        exact ⟨rfl, run, rfl, status, audited, held, isPrepared⟩
      · exact ensures_execute_stopped inside held audited status order fun _ _ => audited

end Execution

end Vetting
