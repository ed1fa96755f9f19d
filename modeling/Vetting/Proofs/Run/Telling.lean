import Vetting.Proofs.Run.Lifetime

/-!
Contract: whoever changes how a run or a step stands tells so in the log.

Owns:
- tidings: what has become of a run or of one of its steps;
- which tidings a request earns, and which it tells of;
- debts: what a program has still to tell of, and the step run that it has found last;
- `telling`, the discipline of a program that tells of each change before it makes another one,
  and of nothing else;
- that every invocation keeps it, and owes nothing when it is done.

Does not own: what a log amounts to (`Vetting.Proofs.Run.Replay`).

A write that fails changes nothing, and then there is nothing to tell of.
-/

namespace Vetting

open Execution

/-- What has become of a run, or of the step with a key. -/
inductive Tiding where
  | run (milestone : Milestone)
  | begun (key : String) (attempt : Nat)
  | finished (key : String) (status : StepStatus)

def EventKind.tiding? : EventKind → Option Tiding
  | .stepStarted key _ attempt | .stepRecovered key _ attempt => some (.begun key attempt)
  | .stepFinished key _ status => some (.finished key status)
  | kind => kind.milestone?.map Tiding.run

namespace Execution

/-- The tiding that a notice is, with the run that it is about. -/
def Notice.tiding? : Notice → Option (Uuid × Tiding)
  | .begun stepRun => some (stepRun.runId, .begun stepRun.stepKey stepRun.attempt)
  | .written stepRun =>
    if stepRun.status.isTerminal then some (stepRun.runId, .finished stepRun.stepKey stepRun.status)
    else none
  | .found _ | .read _ => none

namespace Request

/-- The tiding that a request earns, with the run that it is about. -/
def earns? (request : Request) (answer : request.Answer) : Option (Uuid × Tiding) :=
  match request, answer with
  | .store (.startRun id _), .ok true => some (id, .run .started)
  | .store (.closeRun id status error _), .ok true => some (id, .run (.finalized status error))
  | request, answer => (request.notice? answer).bind Notice.tiding?

/-- The tiding that a request tells of. -/
def tells? : Request → Option (Uuid × Tiding)
  | .log runId kind => kind.tiding?.map fun tiding => (runId, tiding)
  | _ => none

/-- The request may change how a run or a step stands. -/
def steers : Request → Bool
  | .store (.startRun _ _) | .store (.closeRun _ _ _ _) | .store (.acquire _ _ _)
  | .store (.restart _ _ _) | .store (.updateStepRun _) => true
  | _ => false

theorem earns?_of_not_steers {request : Request} (idle : request.steers = false)
    (answer : request.Answer) : request.earns? answer = none := by
  cases request with
  | store request =>
    cases request with
    | startRun | closeRun | acquire | restart | updateStepRun => cases idle
    | stepRun =>
      cases answer with
      | error => rfl
      | ok => rfl
    | _ => rfl
  | _ => rfl

theorem tells?_of_steers {request : Request} (steers : request.steers = true) :
    request.tells? = none := by
  cases request with
  | log => cases steers
  | _ => rfl

end Request

/-! ### What a program has still to tell of -/

structure Debt where
  owed? : Option (Uuid × Tiding)
  /-- The step run that the last answer has found. -/
  found? : Option StepRun

namespace Debt

def blank : Debt := ⟨none, none⟩

/-- The debt after an answer. -/
def noting (debt : Debt) (request : Request) (answer : request.Answer) : Debt where
  owed? := match request.earns? answer, request.tells? with
    | some earned, _ => some earned
    | none, some _ => none
    | none, none => debt.owed?
  found? := match request.notice? answer with
    | some (.found stepRun) => some stepRun
    | _ => none

/-- Nothing is changed as long as something is owed, and nothing else is told. -/
structure May (debt : Debt) (request : Request) : Prop where
  changes : request.steers = true → debt.owed? = none
  tells : ∀ told, request.tells? = some told → debt.owed? = some told

/-- What a program may rely on in an answer. -/
def Reliable (debt : Debt) : (request : Request) → request.Answer → Prop
  | .store (.run id), .error _ => debt.owed? ≠ some (id, .run .started)
  | .store (.acquire runId step _), .ok (.created stepRun) =>
    stepRun.runId = runId ∧ stepRun.stepKey = step.key ∧ stepRun.status = .running
  | .store (.acquire runId step _), .ok (.existing stepRun) =>
    stepRun.runId = runId ∧ stepRun.stepKey = step.key
  | .store (.restart id _ _), .ok (some stepRun) => stepRun.status = .running ∧
      ∀ seen, debt.found? = some seen → seen.id = id →
        stepRun.runId = seen.runId ∧ stepRun.stepKey = seen.stepKey
  | _, _ => True

/-- Everything has been told. -/
def Settled (debt : Debt) : Prop := debt.owed? = none

variable {debt : Debt} {request : Request}

theorem noting_owed {answer : request.Answer} {earned : Uuid × Tiding}
    (earns : request.earns? answer = some earned) :
    (debt.noting request answer).owed? = some earned := by
  simp only [noting, earns]

theorem settled_noting {answer : request.Answer} (earns : request.earns? answer = none)
    (settled : debt.Settled) : (debt.noting request answer).Settled := by
  unfold Settled noting
  rw [earns]
  cases request.tells? with
  | none => exact settled
  | some => rfl

theorem owed?_noting_of_idle {answer : request.Answer} (idle : request.steers = false)
    (silent : request.tells? = none) : (debt.noting request answer).owed? = debt.owed? := by
  simp only [noting, request.earns?_of_not_steers idle, silent]

theorem Settled.may (settled : debt.Settled) (silent : request.tells? = none) :
    debt.May request where
  changes := fun _ => settled
  tells := fun told tells => by
    rw [silent] at tells
    cases tells

end Debt

/-- Telling of each change before the next one. -/
def telling : Discipline Debt where
  may debt request := debt.May request
  learns debt request answer after := debt.Reliable request answer ∧ after = debt.noting request answer

/-! ### Jobs that owe nothing when they are done -/

/-- A job that begins owing nothing owes nothing when it is done. -/
abbrev Frank {ε α : Type} (job : ExceptT ε Program α) : Prop := Preserves telling Debt.Settled job

section Rules

/-- What neither changes how a run or a step stands nor tells of it. -/
def harmless : List Concern := [.inquiry, .marking, .receipt, .launch]

theorem idle_of_harmless {request : Request} (isHarmless : request.concern ∈ harmless) :
    request.steers = false ∧ request.tells? = none := by
  cases request with
  | store request =>
    cases request with
    | startRun | closeRun | acquire | restart | updateStepRun =>
      simp [Request.concern, harmless] at isHarmless
    | _ => exact ⟨rfl, rfl⟩
  | log runId kind => cases kind <;> simp [Request.concern, harmless] at isHarmless
  | _ => exact ⟨rfl, rfl⟩

/-- A job that asks for nothing but what is harmless is frank. -/
theorem Asks.frank {ε α : Type} {job : ExceptT ε Program α} (asks : Asks harmless job) : Frank job := by
  intro debt settled
  apply asks.heeds Debt.Settled _ _ settled
  · intro state request settled isHarmless
    exact settled.may (idle_of_harmless isHarmless).2
  · rintro state request answer after settled isHarmless ⟨_, rfl⟩
    have idle := (idle_of_harmless isHarmless).1
    exact Debt.settled_noting (Request.earns?_of_not_steers idle answer) settled

/-- A request that changes nothing and tells nothing. -/
theorem frank_store (request : StoreRequest) (idle : (Request.store request).steers = false) :
    Frank (Job.store request) := by
  intro debt settled
  refine (heeds_store request).mpr ⟨settled.may rfl, ?_⟩
  rintro answer after ⟨_, rfl⟩
  have settledAfter := Debt.settled_noting (Request.earns?_of_not_steers idle answer) settled
  cases answer <;> exact settledAfter

/-- An event that tells of no change. -/
theorem frank_log (runId : Uuid) {kind : EventKind} (silent : kind.tiding? = none) :
    Frank (Job.log runId kind) := by
  intro debt settled
  have tellsNothing : (Request.log runId kind).tells? = none := by
    rw [Request.tells?, silent]
    rfl
  refine (heeds_log runId kind).mpr ⟨settled.may tellsNothing, ?_⟩
  rintro answer after ⟨_, rfl⟩
  exact Debt.settled_noting rfl settled

theorem frank_now : Frank Job.now := (asks_now (by decide)).frank

/-- What has just been earned is told, and then nothing is owed. -/
theorem heeds_repay {debt : Debt} {runId : Uuid} {kind : EventKind} {tiding : Tiding}
    {bad : EngineFault → Debt → Prop} (tells : kind.tiding? = some tiding)
    (owes : debt.owed? = some (runId, tiding)) :
    Heeds telling (Job.log runId kind) debt (fun _ => Debt.Settled) bad := by
  have isTold : (Request.log runId kind).tells? = some (runId, tiding) := by
    rw [Request.tells?, tells]
    rfl
  refine (heeds_log runId kind).mpr ⟨⟨by rintro ⟨⟩, fun told isTold' => ?_⟩, ?_⟩
  · rw [owes, ← isTold, isTold']
  · rintro answer after ⟨_, rfl⟩
    have nothing : (Request.log runId kind).earns? answer = none := rfl
    unfold Debt.Settled Debt.noting
    rw [nothing, isTold]

end Rules

/-! ### Ending a step, and keeping an output -/

theorem frank_endStep (stepRun : StepRun) (status : StepStatus) (output : StepOutput)
    (error : Option String) : Frank (endStep stepRun status output error) := by
  refine frank_now.bind fun now debt settled => ?_
  rw [endStepAt]
  refine heeds_ite.mpr ⟨fun _ => settled, fun goesOn => ?_⟩
  have terminal : status.isTerminal = true := by
    simp only [Bool.or_eq_true, Bool.not_eq_true', not_or, Bool.not_eq_false] at goesOn
    exact goesOn.1
  apply (heeds_bind _ _).mpr
  refine (heeds_store _).mpr ⟨settled.may rfl, ?_⟩
  rintro answer after ⟨_, rfl⟩
  cases answer with
  | error fault => exact Debt.settled_noting rfl settled
  | ok =>
    have earns : (Request.store (.updateStepRun (stepRun.ended status output error now))).earns?
        (.ok ()) = some (stepRun.runId, .finished stepRun.stepKey status) := if_pos terminal
    apply (heeds_bind _ _).mpr
    exact (heeds_repay rfl (Debt.noting_owed earns)).imp (fun _ _ => id) fun _ _ => id

theorem frank_finish (stepRun : StepRun) (status : StepStatus) (output : StepOutput)
    (error : Option String) :
    Frank (do return StepResult.ofStepRun (← endStep stepRun status output error)) :=
  (frank_endStep stepRun status output error).bind fun _ => preserves_pure _

/-- Keeping an output of a step run that runs changes nothing about how it stands. -/
theorem frank_storeInterim {stepRun : StepRun} (running : stepRun.status = .running)
    (output : StepOutput) : Frank (storeInterim stepRun output) := by
  refine Preserves.bind (fun debt settled => ?_) fun _ => preserves_pure _
  refine (heeds_store _).mpr ⟨settled.may rfl, ?_⟩
  rintro answer after ⟨_, rfl⟩
  cases answer with
  | error fault => exact Debt.settled_noting rfl settled
  | ok =>
    have goesOn : ¬ (stepRun.leaving output).status.isTerminal = true := by
      rw [StepRun.leaving_status, running]
      decide
    exact Debt.settled_noting (if_neg goesOn) settled

/-! ### Processing a step -/

theorem frank_record (runId stepRunId : Uuid) (issues : List Issue) (mode : RecordMode) :
    Frank (record runId stepRunId issues mode) := by
  refine (Asks.frank (asks_stamp (by decide))).bind fun stamp => ?_
  cases mode with
  | replace => exact (frank_store _ rfl).bind fun _ => preserves_pure _
  | append => exact (frank_store _ rfl).bind fun _ => preserves_pure _

theorem frank_countFindings (stepRunId : Uuid) : Frank (countFindings stepRunId) :=
  (frank_store _ rfl).bind fun _ => preserves_pure _

theorem frank_collectSignals (runId : Uuid) (before : Int) : Frank (collectSignals runId before) :=
  (frank_store _ rfl).bind fun _ => preserves_pure _

theorem frank_failWithIssue (stepRun : StepRun) (issue : Issue) (output : StepOutput) :
    Frank (failWithIssue stepRun issue output) :=
  (frank_record _ _ _ _).bind fun _ => (frank_countFindings _).bind fun _ => frank_finish _ _ _ _

theorem frank_failCurrent (stepRunId : Uuid) (code detail : String) :
    Frank (failCurrent stepRunId code detail) :=
  (frank_store _ rfl).bind fun _ => .ite (preserves_pure _) (frank_failWithIssue _ _ _)

theorem frank_failStep (stepRun : StepRun) (fault : EngineFault) : Frank (failStep stepRun fault) :=
  (frank_store _ rfl).bind fun _ =>
    .ite ((frank_failWithIssue _ _ _).bind fun _ => preserves_pure _) (preserves_pure _)

theorem Frank.contain {job : Job StepResult} (frank : Frank job) (stepRunId : Uuid) :
    Frank (contain stepRunId job) := by
  apply frank.tryCatch
  intro fault
  split
  · exact frank_failCurrent _ _ _
  · exact frank_failCurrent _ _ _
  · exact preserves_throw _

section Processing

variable (equipment : Equipment) (run : Run) (step : Step) (stepRun : StepRun) (base : StepOutput)
  (envelope : Envelope) (external : ExternalValidator) (signals : Scope.Signals)

theorem frank_completeWith :
    Frank (completeWith equipment run step stepRun base envelope external signals) :=
  (preserves_given _).bind fun _ => (frank_record _ _ _ _).bind fun _ =>
    (frank_countFindings _).bind fun _ => frank_finish _ _ _ _

theorem frank_completeContained (stepRunId : Uuid) :
    Frank (completeContained equipment stepRunId envelope) := by
  refine Frank.contain ?_ stepRunId
  refine (frank_store (.stepRun stepRunId) rfl).bind fun stepRun => .ite (preserves_pure _) ?_
  refine (frank_store (.run stepRun.runId) rfl).bind fun run => ?_
  cases run.stepByKey? stepRun.stepKey with
  | none => exact preserves_throw _
  | some step =>
    refine (preserves_given _).bind fun _ => (preserves_given _).bind fun _ => ?_
    exact (frank_collectSignals _ _).bind fun _ => frank_completeWith _ _ _ _ _ _ _ _

variable (context : StepContext)

theorem frank_processInline : Frank (processInline equipment context) := by
  refine (preserves_given _).bind fun _ => (preserves_given _).bind fun kind => ?_
  cases kind with
  | external => exact preserves_throw _
  | inline =>
    refine (Asks.frank (asks_validate (by decide) _ _)).bind fun _ => ?_
    exact (frank_record _ _ _ _).bind fun _ => frank_finish _ _ _ _

theorem frank_processAction : Frank (processAction equipment context) := by
  refine (preserves_given _).bind fun _ => (preserves_given _).bind fun _ => ?_
  refine (Asks.frank (asks_act (by decide) _ _)).bind fun _ => ?_
  exact (frank_record _ _ _ _).bind fun _ => frank_finish _ _ _ _

variable {context}

theorem frank_afterLaunch (running : context.stepRun.status = .running) (left : StepOutput)
    (response : JobResponse) :
    Frank (afterLaunch equipment context external (context.stepRun.leaving left) left response) := by
  have goesOn : (context.stepRun.leaving left).status = .running := running
  refine .ite ?_ ?_
  · refine (frank_storeInterim goesOn _).bind fun _ => ?_
    exact (frank_log _ rfl).bind fun _ => preserves_pure _
  · cases response.envelope? with
    | some envelope => exact frank_completeWith _ _ _ _ _ _ _ _
    | none => exact (frank_storeInterim goesOn _).bind fun _ => frank_failWithIssue _ _ _

/-- The step run that has been kept is the one that is at work from then on. -/
theorem frank_afterInterim {stepRun : StepRun} (running : stepRun.status = .running)
    (output : StepOutput) {α : Type} {next : StepRun → Job α}
    (goesOn : Frank (next (stepRun.leaving output))) :
    Frank (storeInterim stepRun output >>= next) := by
  have update : Frank (Job.store (.updateStepRun (stepRun.leaving output))) := by
    intro debt settled
    have stores := frank_storeInterim running output debt settled
    exact ((heeds_bind _ _).mp stores).imp (fun _ _ => id) fun _ _ => id
  have bound : (storeInterim stepRun output >>= next) =
      (Job.store (.updateStepRun (stepRun.leaving output)) >>= fun _ =>
        next (stepRun.leaving output)) := by
    simp only [storeInterim, bind_assoc, pure_bind]
    rfl
  rw [bound]
  exact update.bind fun _ => goesOn

theorem frank_processExternal (running : context.stepRun.status = .running) :
    Frank (processExternal equipment context) := by
  refine (preserves_given _).bind fun _ => (preserves_given _).bind fun external => ?_
  refine (Asks.frank (asks_backendAvailable (by decide))).bind fun _ => .ite (preserves_throw _) ?_
  refine (frank_record _ _ _ _).bind fun _ => frank_afterInterim running _ ?_
  exact (Asks.frank (asks_launch (by decide) _)).bind fun response =>
    frank_afterLaunch equipment external running _ response

theorem frank_dispatch (running : context.stepRun.status = .running) :
    Frank (dispatch equipment context) := by
  refine Frank.contain ((preserves_given _).bind fun processor => ?_) _
  cases processor with
  | inline => exact frank_processInline equipment context
  | external => exact frank_processExternal equipment running
  | action => exact frank_processAction equipment context

end Processing

/-! ### Taking the steps of a run -/

/-- A step that is to be carried out runs, and its beginning has been told. -/
theorem heeds_beginStep_telling {debt : Debt} (settled : debt.Settled) (runId : Uuid) (step : Step) :
    Heeds telling (beginStep runId step) debt
      (fun handle after =>
        after.Settled ∧ (handle.execute = true → handle.stepRun.status = .running))
      fun _ => Debt.Settled := by
  apply (heeds_bind _ _).mpr
  refine (frank_now debt settled).imp (fun now middle settled => ?_) fun _ _ => id
  apply (heeds_bind _ _).mpr
  refine (heeds_store _).mpr ⟨settled.may rfl, ?_⟩
  rintro answer after ⟨reliable, rfl⟩
  cases answer with
  | error fault => exact Debt.settled_noting rfl settled
  | ok acquisition =>
    cases acquisition with
    | created stepRun =>
      obtain ⟨rfl, ofStep, running⟩ := reliable
      apply (heeds_bind _ _).mpr
      refine (heeds_repay rfl ?_).imp (fun _ _ settled => ⟨settled, fun _ => running⟩) fun _ _ => id
      rw [← ofStep]
      exact Debt.noting_owed rfl
    | existing stepRun =>
      have settled : (middle.noting (.store (.acquire runId step now))
          (.ok (.existing stepRun))).Settled := Debt.settled_noting rfl settled
      refine heeds_ite.mpr ⟨fun _ => ⟨settled, fun no => nomatch no⟩, fun _ => ?_⟩
      apply (heeds_bind _ _).mpr
      refine (heeds_store _).mpr ⟨settled.may rfl, ?_⟩
      rintro answer after ⟨continued, rfl⟩
      cases answer with
      | error fault => exact Debt.settled_noting rfl settled
      | ok restarted? =>
        cases restarted? with
        | none =>
          apply (heeds_bind _ _).mpr
          refine (frank_store _ rfl _ (Debt.settled_noting rfl settled)).imp ?_ fun _ _ => id
          exact fun _ _ settled => ⟨settled, fun no => nomatch no⟩
        | some restarted =>
          obtain ⟨running, sameStep⟩ := continued
          obtain ⟨sameRun, sameKey⟩ := sameStep stepRun rfl rfl
          apply (heeds_bind _ _).mpr
          refine (heeds_repay rfl ?_).imp (fun _ _ settled => ⟨settled, fun _ => running⟩)
            fun _ _ => id
          rw [← reliable.2, ← sameKey, ← reliable.1, ← sameRun]
          exact Debt.noting_owed rfl

section Taking

variable (equipment : Equipment) (run : Run) (submission : Submission)

theorem frank_takeStep (step : Step) : Frank (takeStep equipment run submission step) := by
  intro debt settled
  apply (heeds_bind _ _).mpr
  apply (heeds_during _ _).mpr
  refine (heeds_beginStep_telling settled run.id step).imp (fun handle after begun => ?_) fun _ _ => id
  refine heeds_ite.mpr ⟨fun executes => ?_, fun _ => begun.1⟩
  have carries : Frank (Execution.during (some handle.stepRun) do
      let signals ← collectSignals run.id step.order
      return progressAfter
        (← dispatch equipment ⟨run, step, handle.stepRun, submission, signals⟩)) := by
    refine Preserves.during ((frank_collectSignals _ _).bind fun signals => ?_) _
    exact (frank_dispatch equipment (begun.2 executes)).bind fun _ => preserves_pure _
  exact carries after begun.1

theorem frank_takeSteps (steps : List Step) :
    Frank (takeSteps equipment run submission steps) := by
  induction steps with
  | nil => exact preserves_pure _
  | cons step rest inductionHypothesis =>
    refine ((frank_store (.cancelFlag run.id) rfl).during none).bind fun _ => .ite (preserves_pure _) ?_
    refine (frank_takeStep equipment run submission step).bind fun progress? => ?_
    cases progress? with
    | some progress => exact preserves_pure _
    | none => exact inductionHypothesis

theorem frank_drive (start : Int) : Frank (drive equipment run start) :=
  ((frank_store _ rfl).during none).bind fun submission => frank_takeSteps equipment run submission _

end Taking

/-! ### Entering and closing a run -/

theorem frank_currentOutcome (runId : Uuid) : Frank (currentOutcome runId) :=
  ((asks_currentOutcome runId).mono (by decide)).frank

theorem frank_storeSummary (runId : Uuid) : Frank (storeSummary runId) :=
  ((asks_storeSummary runId).mono (by decide)).frank

theorem frank_closeRun (runId : Uuid) (status : RunStatus) (error : Option String) :
    Frank (closeRun runId status error) := by
  refine frank_now.bind fun now debt settled => ?_
  apply (heeds_bind _ _).mpr
  refine (heeds_store _).mpr ⟨settled.may rfl, ?_⟩
  rintro answer after ⟨_, rfl⟩
  cases answer with
  | error fault => exact Debt.settled_noting rfl settled
  | ok closed =>
    cases closed with
    | false => exact frank_currentOutcome runId _ (Debt.settled_noting rfl settled)
    | true =>
      apply (heeds_bind _ _).mpr
      refine (heeds_repay rfl (Debt.noting_owed rfl)).imp (fun _ last settled => ?_) fun _ _ => id
      have sumsUp := (frank_storeSummary runId).bind fun _ => frank_currentOutcome runId
      exact sumsUp last settled

theorem frank_failRun (runId : Uuid) (interruption : Interruption) :
    Frank (failRun runId interruption) := by
  rw [failRun]
  cases interruption.current with
  | none => exact frank_closeRun _ _ _
  | some stepRun =>
    have fails := (frank_failStep stepRun interruption.fault).tryCatch fun _ => preserves_pure ()
    exact fails.bind fun _ => frank_closeRun _ _ _

/-- A run that has been started is there, so that its start is told. -/
theorem frank_enterRun_start (runId : Uuid) : Frank (enterRun runId none) := by
  refine frank_now.bind fun now debt settled => ?_
  apply (heeds_bind _ _).mpr
  refine (heeds_store _).mpr ⟨settled.may rfl, ?_⟩
  rintro answer after ⟨_, rfl⟩
  cases answer with
  | error fault => exact Debt.settled_noting rfl settled
  | ok started =>
    cases started with
    | false =>
      have ignores : Frank (do
          let run ← Job.store (.run runId)
          Job.log runId (.duplicateDeliveryIgnored run.status)
          return some (RunOutcome.ofRun run)) :=
        (frank_store _ rfl).bind fun _ => (frank_log _ rfl).bind fun _ => preserves_pure _
      exact ignores _ (Debt.settled_noting rfl settled)
    | true =>
      have owes : (debt.noting (.store (.startRun runId now)) (.ok true)).owed? =
          some (runId, .run .started) := Debt.noting_owed rfl
      generalize debt.noting (.store (.startRun runId now)) (.ok true) = middle at owes ⊢
      -- Between the start and its event the run is read, which cannot fail once it has been started.
      apply (heeds_bind _ _).mpr
      refine (heeds_store _).mpr ⟨⟨by rintro ⟨⟩, by rintro _ ⟨⟩⟩, ?_⟩
      rintro answer after ⟨reliable, rfl⟩
      cases answer with
      | error fault => exact absurd owes reliable
      | ok run =>
        apply (heeds_bind _ _).mpr
        refine (heeds_repay rfl ?_).imp (fun _ _ => id) fun _ _ => id
        rw [Debt.owed?_noting_of_idle rfl rfl]
        exact owes

theorem frank_enterRun (runId : Uuid) (resumeFrom : Option Int) :
    Frank (enterRun runId resumeFrom) := by
  cases resumeFrom with
  | none => exact frank_enterRun_start runId
  | some order =>
    refine (frank_store (.run runId) rfl).bind fun run => .ite ?_ (preserves_pure _)
    exact (frank_log _ rfl).bind fun _ => preserves_pure _

theorem frank_execute (equipment : Equipment) (runId : Uuid) (resumeFrom : Option Int) :
    Frank (execute equipment runId resumeFrom) := by
  refine (frank_enterRun runId resumeFrom).bind fun entered => ?_
  cases entered with
  | some outcome => exact preserves_pure _
  | none =>
    refine (frank_store (.run runId) rfl).bind fun run => ?_
    refine (frank_drive equipment run _).attempt.bind fun result => ?_
    cases result with
    | error interruption => exact frank_failRun runId interruption
    | ok progress =>
      cases progress with
      | completed | failed | canceled => exact frank_closeRun _ _ _
      | pending | yielded => exact frank_currentOutcome _

/-! ### Callbacks and cancellation -/

section Callbacks

variable (stepRun : StepRun)

theorem frank_report (result : StepResult) (resumeFrom : Option Int) (id : Uuid) :
    Frank (do
      return (⟨result, resumeFrom, false, (← Job.store (.run id)).status⟩ : CallbackOutcome)) :=
  (frank_store _ rfl).bind fun _ => preserves_pure _

theorem frank_ignoreCallback (reason : String) (duplicate : Bool) :
    Frank (ignoreCallback stepRun reason duplicate) :=
  (frank_log _ rfl).bind fun _ => (frank_store _ rfl).bind fun _ => preserves_pure _

theorem frank_followCallback (result : StepResult) : Frank (followCallback stepRun result) := by
  refine (frank_log _ rfl).bind fun _ => (frank_store (.run stepRun.runId) rfl).bind fun run => ?_
  refine .ite ?_ (.ite (frank_report _ _ _) ?_)
  · exact (frank_storeSummary _).bind fun _ => frank_report _ _ _
  · exact (frank_closeRun _ _ _).bind fun _ => frank_report _ _ _

theorem frank_recoverCallback (fault : EngineFault) : Frank (recoverCallback stepRun fault) := by
  have reports : Frank (do
      let latest ← Job.store (.stepRun stepRun.id)
      return (⟨.ofStepRun latest, none, false,
        (← Job.store (.run stepRun.runId)).status⟩ : CallbackOutcome)) :=
    (frank_store _ rfl).bind fun _ => frank_report _ _ _
  refine (frank_store (.run stepRun.runId) rfl).bind fun run => .ite ?_ ?_
  · exact (frank_failStep _ _).bind fun _ => (frank_storeSummary _).bind fun _ => reports
  · exact (frank_failRun _ _).bind fun _ => reports

theorem frank_applyCallback (equipment : Equipment) (envelope : Envelope) :
    Frank (applyCallback equipment stepRun envelope) := by
  refine .ite (frank_ignoreCallback _ _ _) ?_
  refine (frank_completeContained equipment envelope stepRun.id).attempt.bind fun result => ?_
  cases result with
  | ok result => exact frank_followCallback stepRun result
  | error fault => exact frank_recoverCallback stepRun fault

theorem frank_completeCallback (equipment : Equipment) (id : Uuid) (envelope : Envelope)
    (key? : Option String) : Frank (completeCallback equipment id envelope key?) := by
  refine (frank_store (.stepRun id) rfl).bind fun stepRun => ?_
  cases key? with
  | none => exact frank_applyCallback stepRun equipment envelope
  | some key =>
    refine .ite (frank_ignoreCallback _ _ _) (frank_now.bind fun now => ?_)
    refine (frank_store (.recordCallback key id now) rfl).bind fun isNew => ?_
    refine .ite (Preserves.tryCatch (frank_applyCallback stepRun equipment envelope) fun fault => ?_)
      (frank_ignoreCallback _ _ _)
    have releases := (frank_store (.releaseCallback key) rfl).tryCatch fun _ => preserves_pure ()
    exact releases.bind fun _ => preserves_throw fault

end Callbacks

theorem frank_cancel (runId : Uuid) : Frank (Execution.cancel runId) := by
  refine (frank_store (.run runId) rfl).bind fun run => .ite (preserves_pure _) ?_
  refine (frank_store (.flagCancel runId) rfl).bind fun _ => (frank_log _ rfl).bind fun _ => ?_
  refine (frank_store (.stepRuns runId) rfl).bind fun stepRuns => ?_
  exact .ite (frank_closeRun _ _ _) (preserves_pure _)

/-- Whatever comes of a frank job, nothing is owed when it is done. -/
theorem Frank.forgetful {α : Type} {job : Job α} (frank : Frank job) :
    job.run.forgetful.Heeds telling .blank fun _ => Debt.Settled := by
  apply (Program.heeds_bind _ _ _).mpr
  apply program_heeds_run.mpr
  exact (frank .blank rfl).imp (fun _ _ => id) fun _ _ => id

/-- Every invocation tells of what it changes. -/
theorem Invocation.tells (invocation : Invocation) (equipment : Equipment) :
    (invocation.program equipment).Heeds telling .blank fun _ => Debt.Settled := by
  cases invocation with
  | execute id resumeFrom => exact (frank_execute equipment id resumeFrom).forgetful
  | callback id envelope key? => exact (frank_completeCallback equipment id envelope key?).forgetful
  | cancel id => exact (frank_cancel id).forgetful

end Execution

end Vetting
