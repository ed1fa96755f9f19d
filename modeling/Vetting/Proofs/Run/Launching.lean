import Vetting.Proofs.Run.Concerns
import Vetting.Proofs.Run.Endurance
import Vetting.Proofs.Run.Invocation

/-!
Contract: which jobs are handed to the backend.

Owns:
- `JobRequest.Suits`: a job is that of the current attempt at a step run, which runs and
  waits for nothing;
- `launching`, the discipline of a program that launches one job for a step run that it has
  begun, and that every invocation keeps it;
- that the jobs of a step run have increasing attempts, however often invocations are cut
  short.

Does not own: what a backend makes of a job.

An attempt is used up by launching its job: another one is launched only after the step has
been begun again.
-/

namespace Vetting

/-- The job is that of the current attempt at a step run, which runs and waits for nothing. -/
structure JobRequest.Suits (job : JobRequest) (stepRun : StepRun) : Prop where
  stepRunId : job.stepRunId = stepRun.id
  attempt : job.attempt = stepRun.attempt
  key : job.idempotencyKey = Digest.attemptKey stepRun.id stepRun.attempt
  running : stepRun.status = .running
  idle : stepRun.awaitsJob = false

namespace Execution

/-- The step run whose job may be launched, after an answer. -/
def readied (ready? : Option StepRun) (request : Request) (answer : request.Answer) :
    Option StepRun :=
  match request.notice? answer with
  | some (.begun stepRun) => some stepRun
  | some (.written stepRun) => ready?.bind fun ready =>
    if ready.id = stepRun.id then some stepRun else none
  | _ => if request.concern = .launch then none else ready?

section Discipline

variable (mayAnswer : (request : Request) → request.Answer → Prop) (known : Uuid → Prop)

/-- Launching the job of a step run that has just been begun, and no other one after it. -/
def launching : Discipline (Option StepRun) where
  may ready? request := ∀ job, request = .launch job →
    ∃ stepRun, ready? = some stepRun ∧ job.Suits stepRun
  learns ready? request answer after :=
    Credible mayAnswer known request answer ∧ after = readied ready? request answer

end Discipline

section Operations

variable {mayAnswer : (request : Request) → request.Answer → Prop} {known : Uuid → Prop}
  {ready? : Option StepRun} {ε α β : Type}

theorem ne_launch_of_concern {request : Request} (other : request.concern ≠ .launch)
    (job : JobRequest) : request ≠ .launch job := by
  rintro rfl
  exact other rfl

/-- Whoever launches nothing may do so in any state. -/
theorem Asks.launchless {concerns : List Concern} {job : ExceptT ε Program α}
    (asks : Asks concerns job) (unlaunched : Concern.launch ∉ concerns) :
    Heeds (launching mayAnswer known) job ready? (fun _ _ => True) fun _ _ => True := by
  refine (asks.heeds (fun _ => True) ?_ (fun _ _ _ _ _ _ _ => trivial) trivial).imp
    (fun _ _ _ => trivial) fun _ _ _ => trivial
  intro state request _ member job launches
  exact absurd launches (ne_launch_of_concern (ne_of_mem_of_not_mem member unlaunched) job)

/-- What neither begins, writes nor launches anything. -/
def idling : List Concern := [.inquiry, .telling, .start, .close, .marking, .receipt]

theorem readied_of_idle {request : Request} (member : request.concern ∈ idling)
    (answer : request.Answer) : readied ready? request answer = ready? := by
  have unlaunched : request.concern ≠ .launch := by
    intro same
    rw [same] at member
    simp [idling] at member
  have unchanged : ∀ stepRun, request.notice? answer ≠ some (.begun stepRun) ∧
      request.notice? answer ≠ some (.written stepRun) := by
    intro stepRun
    cases request with
    | store request =>
      cases request with
      | acquire | restart | updateStepRun => simp [idling, Request.concern] at member
      | stepRun => cases answer <;> simp [Request.notice?]
      | _ => simp [Request.notice?]
    | _ => simp [Request.notice?]
  unfold readied
  split
  · exact absurd ‹_› (unchanged _).1
  · exact absurd ‹_› (unchanged _).2
  · exact if_neg unlaunched

/-- A step run that is ready stays so while nothing is begun, written or launched. -/
theorem Asks.idles {concerns : List Concern} {job : ExceptT ε Program α}
    {next : α → ExceptT ε Program β} {good : β → Option StepRun → Prop}
    (asks : Asks concerns job) (subset : concerns ⊆ idling)
    (goesOn : ∀ result, Heeds (launching mayAnswer known) (next result) ready? good
      fun _ _ => True) :
    Heeds (launching mayAnswer known) (job >>= next) ready? good fun _ _ => True := by
  have unlaunched : ∀ request : Request, request.concern ∈ concerns →
      request.concern ≠ .launch := by
    intro request member same
    have idle := subset member
    rw [same] at idle
    simp [idling] at idle
  apply (heeds_bind job next).mpr
  refine (asks.heeds (fun state => state = ready?) ?_ ?_ rfl).imp ?_ fun _ _ _ => trivial
  · intro state request _ member job launches
    exact absurd launches (ne_launch_of_concern (unlaunched request member) job)
  · rintro state request answer after rfl member ⟨_, rfl⟩
    exact readied_of_idle (subset member) answer
  · rintro result after rfl
    exact goesOn result

/-- Findings are recorded, and the step run stays ready. -/
theorem launching_record (runId stepRunId : Uuid) (issues : List Issue) (mode : RecordMode)
    {next : Recorded → Job β} {good : β → Option StepRun → Prop}
    (goesOn : ∀ recorded, Heeds (launching mayAnswer known) (next recorded) ready? good
      fun _ _ => True) :
    Heeds (launching mayAnswer known) (record runId stepRunId issues mode >>= next) ready? good
      fun _ _ => True := by
  have records : ∀ request : StoreRequest, (Request.store request).concern = .recording →
      (∀ answer, (Request.store request).notice? answer = none) →
      Heeds (launching mayAnswer known) (Job.store request) ready? (fun _ after => after = ready?)
        fun _ _ => True := by
    intro request isRecording silent
    refine (heeds_store request).mpr ⟨by rintro job ⟨⟩, ?_⟩
    rintro answer after ⟨_, rfl⟩
    have same : readied ready? (.store request) answer = ready? := by
      simp [readied, silent, isRecording]
    cases answer with
    | error fault => trivial
    | ok result => exact same
  rw [record, bind_assoc]
  apply (asks_stamp (List.mem_singleton_self Concern.inquiry)).idles (by decide)
  intro stamp
  cases mode with
  | replace =>
    rw [bind_assoc]
    apply (heeds_bind _ _).mpr
    refine (records (.replaceFindings _ _) rfl fun _ => rfl).imp ?_ fun _ _ _ => trivial
    rintro _ _ rfl
    exact goesOn _
  | append =>
    rw [bind_assoc]
    apply (heeds_bind _ _).mpr
    refine (records (.appendFindings _ _) rfl fun _ => rfl).imp ?_ fun _ _ _ => trivial
    rintro _ _ rfl
    exact goesOn _

/-- What a step that is ready leaves before its job is handed over is ready. -/
theorem launching_storeInterim {stepRun : StepRun} (ready : ready? = some stepRun)
    (output : StepOutput) {next : StepRun → Job β} {good : β → Option StepRun → Prop}
    (goesOn : Heeds (launching mayAnswer known) (next (stepRun.leaving output))
      (some (stepRun.leaving output)) good fun _ _ => True) :
    Heeds (launching mayAnswer known) (storeInterim stepRun output >>= next) ready? good
      fun _ _ => True := by
  rw [storeInterim, bind_assoc]
  apply (heeds_bind _ _).mpr
  refine (heeds_store _).mpr ⟨by rintro job ⟨⟩, ?_⟩
  rintro answer after ⟨_, rfl⟩
  cases answer with
  | error fault => trivial
  | ok result =>
    have isReady : readied ready? (.store (.updateStepRun (stepRun.leaving output))) (.ok ()) =
        some (stepRun.leaving output) := by
      rw [ready]
      exact if_pos rfl
    rw [← isReady] at goesOn
    exact goesOn

/-- What is settled without asking for anything leaves a step run ready. -/
theorem launching_settled (given : Except EngineFault α) {next : α → Job β}
    {good : β → Option StepRun → Prop}
    (goesOn : ∀ result, Heeds (launching mayAnswer known) (next result) ready? good
      fun _ _ => True) :
    Heeds (launching mayAnswer known) (ExceptT.mk (pure given) >>= next) ready? good
      fun _ _ => True := by
  have asks : Asks [] (ExceptT.mk (pure given) : Job α) := asks_given given
  exact asks.idles (by decide) goesOn

section Processing

variable {context : StepContext}

/-- The job that is launched is that of the attempt that has just begun. -/
theorem suits_jobRequest (running : context.stepRun.status = .running) (equipment : Equipment)
    (validator : Validator) (external : ExternalValidator) (report : Rule.Report)
    (counts : SeverityCounts) :
    (jobRequest context validator external
      (Digest.attemptKey context.stepRun.id context.stepRun.attempt)).Suits
      (context.stepRun.leaving (interimOutput equipment validator report counts
        (Digest.attemptKey context.stepRun.id context.stepRun.attempt))) where
  stepRunId := rfl
  attempt := rfl
  key := rfl
  running := running
  idle := rfl

theorem launching_processExternal (equipment : Equipment) (ready : ready? = some context.stepRun)
    (running : context.stepRun.status = .running) :
    Heeds (launching mayAnswer known) (processExternal equipment context) ready?
      (fun _ _ => True) fun _ _ => True := by
  have available : Asks [.inquiry] Job.backendAvailable := asks_backendAvailable (by decide)
  apply launching_settled
  intro found
  apply launching_settled
  intro external
  apply available.idles (by decide)
  intro isAvailable
  refine heeds_ite.mpr ⟨fun _ => trivial, fun _ => ?_⟩
  apply launching_record
  intro recorded
  apply launching_storeInterim ready
  apply (heeds_bind _ _).mpr
  refine (heeds_launch _).mpr ⟨?_, fun answer after _ => ?_⟩
  · rintro _ ⟨⟩
    exact ⟨_, rfl, suits_jobRequest running equipment found.1 external _ _⟩
  · cases answer with
    | error fault => trivial
    | ok response =>
      exact (asks_afterLaunch equipment context external _ _ response).launchless (by decide)

theorem launching_dispatch (equipment : Equipment) (ready : ready? = some context.stepRun)
    (running : context.stepRun.status = .running) :
    Heeds (launching mayAnswer known) (dispatch equipment context) ready? (fun _ _ => True)
      fun _ _ => True := by
  have processes : Heeds (launching mayAnswer known) (do
      let processor ← ExceptT.mk (pure (Processor.ofStep equipment context.step))
      processor.process equipment context) ready? (fun _ _ => True) fun _ _ => True := by
    apply launching_settled
    intro processor
    cases processor with
    | inline => exact (asks_processInline equipment context).launchless (by decide)
    | external => exact launching_processExternal equipment ready running
    | action => exact (asks_processAction equipment context).launchless (by decide)
  have fails : ∀ (after : Option StepRun) code detail, Heeds (launching mayAnswer known)
      (failCurrent context.stepRun.id code detail) after (fun _ _ => True) fun _ _ => True :=
    fun _ _ _ => (asks_failCurrent _ _ _).launchless (by decide)
  apply (heeds_tryCatch _ _).mpr
  refine processes.imp (fun _ _ _ => trivial) fun fault after _ => ?_
  split
  · exact fails after _ _
  · exact fails after _ _
  · trivial

end Processing

/-! ### Taking the steps of a run -/

section Taking

variable (equipment : Equipment) (run : Run) (submission : Submission)

/-- Who is to carry a step out has just begun it. -/
theorem launching_beginStep (runId : Uuid) (step : Step) :
    Heeds (launching mayAnswer known) (beginStep runId step) ready?
      (fun handle after => handle.execute = true →
        after = some handle.stepRun ∧ handle.stepRun.status = .running) fun _ _ => True := by
  apply asks_clock.idles (by decide)
  intro now
  apply (heeds_bind _ _).mpr
  refine (heeds_store _).mpr ⟨by rintro job ⟨⟩, ?_⟩
  rintro answer after ⟨credible, rfl⟩
  cases answer with
  | error fault => trivial
  | ok acquisition =>
    cases acquisition with
    | created stepRun =>
      apply (asks_telling runId (.stepStarted _ _ _) rfl).idles (by decide)
      exact fun _ _ => ⟨rfl, credible⟩
    | existing stepRun =>
      refine heeds_ite.mpr ⟨by rintro _ ⟨⟩, fun _ => ?_⟩
      apply (heeds_bind _ _).mpr
      refine (heeds_store _).mpr ⟨by rintro job ⟨⟩, ?_⟩
      rintro answer after ⟨credible, rfl⟩
      cases answer with
      | error fault => trivial
      | ok restarted? =>
        cases restarted? with
        | some restarted =>
          apply (asks_telling runId (.stepRecovered _ _ _) rfl).idles (by decide)
          exact fun _ _ => ⟨rfl, credible.2⟩
        | none =>
          apply (asks_inquiry (.stepRun stepRun.id) rfl).idles (by decide)
          exact by rintro _ ⟨⟩

theorem launching_takeStep (step : Step) :
    Heeds (launching mayAnswer known) (takeStep equipment run submission step) ready?
      (fun _ _ => True) fun _ _ => True := by
  apply (heeds_bind _ _).mpr
  apply (heeds_during _ _).mpr
  refine (launching_beginStep run.id step).imp (fun handle after begun => ?_) fun _ _ _ => trivial
  refine heeds_ite.mpr ⟨fun executes => ?_, fun _ => trivial⟩
  obtain ⟨ready, running⟩ := begun executes
  have collects : Asks [.inquiry] (collectSignals run.id step.order) :=
    (asks_inquiry _ rfl).bind fun _ => asks_pure _
  apply (heeds_during _ _).mpr
  apply collects.idles (by decide)
  intro signals
  apply (heeds_bind _ _).mpr
  exact (launching_dispatch equipment ready running).imp (fun _ _ _ => trivial) fun _ _ _ => trivial

theorem launching_takeSteps (steps : List Step) :
    Heeds (launching mayAnswer known) (takeSteps equipment run submission steps) ready?
      (fun _ _ => True) fun _ _ => True := by
  induction steps generalizing ready? with
  | nil => trivial
  | cons step rest inductionHypothesis =>
    apply ((asks_inquiry (.cancelFlag run.id) rfl).during none).idles (by decide)
    intro canceled
    refine heeds_ite.mpr ⟨fun _ => trivial, fun _ => ?_⟩
    apply (heeds_bind _ _).mpr
    refine (launching_takeStep equipment run submission step).imp (fun progress? after _ => ?_)
      fun _ _ _ => trivial
    cases progress? with
    | some progress => trivial
    | none => exact inductionHypothesis

theorem launching_execute (runId : Uuid) (resumeFrom : Option Int) :
    Heeds (launching mayAnswer known) (execute equipment runId resumeFrom) ready?
      (fun _ _ => True) fun _ _ => True := by
  apply (heeds_bind _ _).mpr
  refine ((asks_enterRun runId resumeFrom).launchless (by decide)).imp
    (fun entered middle _ => ?_) fun _ _ _ => trivial
  cases entered with
  | some outcome => trivial
  | none =>
    apply (asks_inquiry (.run runId) rfl).idles (by decide)
    intro run
    have drives : Heeds (launching mayAnswer known)
        (drive equipment run (resumeFrom.getD leastOrder)) middle (fun _ _ => True)
        fun _ _ => True := by
      apply ((asks_inquiry (.submission run.submissionId) rfl).during none).idles (by decide)
      exact fun submission => launching_takeSteps equipment run submission _
    apply (heeds_bind _ _).mpr
    apply (heeds_lift _).mpr
    apply program_heeds_run.mpr
    refine drives.imp (fun progress after _ => ?_) fun interruption after _ => ?_
    · cases progress with
      | completed | failed | canceled => exact (asks_closeRun _ _ _).launchless (by decide)
      | pending | yielded => exact (asks_currentOutcome _).launchless (by decide)
    · exact (asks_failRun _ _).launchless (by decide)

end Taking

/-- Every invocation launches only the jobs of step runs that it has begun. -/
theorem Invocation.launches (invocation : Invocation) (equipment : Equipment) :
    (invocation.program equipment).Heeds (launching mayAnswer known) none fun _ _ => True := by
  cases invocation with
  | execute runId resumeFrom => exact (launching_execute equipment runId resumeFrom).forgetful
  | callback stepRunId envelope key? =>
    have asks := asks_completeCallback equipment stepRunId envelope key?
    exact (asks.launchless (by decide)).forgetful
  | cancel runId => exact ((asks_cancel runId).launchless (by decide)).forgetful

end Operations

/-! ### Increasing attempts -/

section Chronicle

variable {mayAnswer : (request : Request) → request.Answer → Prop} {known : Uuid → Prop}
  {ready? : Option StepRun} {turns : List (Turn Unit)} {world after : World} {sight : Sight}

/-- The job that is handed over in a turn. -/
def Turn.launched? {ι : Type} (turn : Turn ι) : Option JobRequest :=
  match turn.request with
  | .launch job => some job
  | _ => none

/-- The jobs that have been handed over, in turn. -/
def launchedIn {ι : Type} (turns : List (Turn ι)) : List JobRequest :=
  turns.filterMap Turn.launched?

/-- Jobs of one step run have increasing attempts. -/
def Increasing (jobs : List JobRequest) : Prop :=
  jobs.Pairwise fun first second =>
    first.stepRunId = second.stepRunId → first.attempt < second.attempt

/-- What has been launched so far is not ahead of what is stored, and behind what is ready. -/
structure Launched (ready? : Option StepRun) (turns : List (Turn Unit)) (world : World) :
    Prop where
  ready : ∀ stepRun, ready? = some stepRun →
    world.store.stepRuns.get? stepRun.id = some stepRun
  increasing : Increasing (launchedIn turns)
  stored : ∀ job ∈ launchedIn turns, ∃ stepRun,
    world.store.stepRuns.get? job.stepRunId = some stepRun ∧ job.attempt ≤ stepRun.attempt
  behind : ∀ stepRun, ready? = some stepRun → ∀ job ∈ launchedIn turns,
    job.stepRunId = stepRun.id → job.attempt < stepRun.attempt
  suited : ∀ turn ∈ turns, ∀ job, turn.launched? = some job → ∃ stepRun,
    turn.after.store.stepRuns.get? job.stepRunId = some stepRun ∧ job.Suits stepRun

/-- A step run that is there stays there.  Its attempt never falls, and rises if it is begun again. -/
theorem Sight.Does.attempts {before later : Store} {notice? : Option Notice}
    (does : sight.Does mayAnswer before notice? later)
    (sees : ∀ id, sight.shown id = none ∨ sight.shown id = before.stepRuns.get? id) {id : Uuid}
    {stepRun : StepRun} (held : before.stepRuns.get? id = some stepRun) :
    ∃ last, later.stepRuns.get? id = some last ∧ stepRun.attempt ≤ last.attempt ∧
      ∀ begun, notice? = some (.begun begun) → begun.id = id → stepRun.attempt < last.attempt := by
  cases does with
  | nothing same => exact ⟨stepRun, by rw [same, held], Nat.le_refl _, by rintro _ ⟨⟩⟩
  | finds | reads => exact ⟨stepRun, held, Nat.le_refl _, by rintro _ ⟨⟩⟩
  | @creates created _ absent _ _ sets =>
    have other : created.id ≠ id := by
      rintro rfl
      rw [absent] at held
      cases held
    refine ⟨stepRun, ?_, Nat.le_refl _, ?_⟩
    · rw [sets, Table.get?_set, if_neg other, held]
    · rintro _ ⟨⟩ same
      exact absurd same other
  | @restarts seen old now _ _ _ heldOld _ _ _ sets =>
    by_cases same : old.id = id
    · subst same
      obtain rfl := Option.some.inj (heldOld.symm.trans held)
      refine ⟨restarted old now, ?_, Nat.le_succ _, fun _ _ _ => Nat.lt_succ_self _⟩
      rw [sets, Table.get?_set, if_pos rfl]
    · refine ⟨stepRun, ?_, Nat.le_refl _, ?_⟩
      · rw [sets, Table.get?_set, if_neg same, held]
      · rintro _ ⟨⟩ no
        exact absurd no same
  | @writes seen written old _ isShown moves _ heldOld sets =>
    by_cases same : written.id = id
    · subst same
      have isStored := sight.held_of_shown (sees written.id) isShown
      obtain rfl := Option.some.inj (isStored.symm.trans held)
      refine ⟨written, ?_, Nat.le_of_eq moves.attempt.symm, by rintro _ ⟨⟩⟩
      rw [sets, Table.get?_set, if_pos rfl]
    · refine ⟨stepRun, ?_, Nat.le_refl _, by rintro _ ⟨⟩⟩
      rw [sets, Table.get?_set, if_neg same, held]

variable {request : Request} {answer : request.Answer}

/-- What is ready after a turn has just been begun, has been ready and has just been written, or has
been ready and is as it was. -/
theorem ready_cases {stepRun : StepRun} (isReady : readied ready? request answer = some stepRun) :
    request.notice? answer = some (.begun stepRun) ∨
      (request.notice? answer = some (.written stepRun) ∧
        ∃ before, ready? = some before ∧ before.id = stepRun.id) ∨
      (ready? = some stepRun ∧ (request.notice? answer).bind Notice.change? = none) := by
  unfold readied at isReady
  split at isReady
  · rename_i begun isNotice
    obtain rfl := Option.some.inj isReady
    exact Or.inl isNotice
  · rename_i written isNotice
    obtain ⟨before, ready, isWritten⟩ := Option.bind_eq_some_iff.mp isReady
    split at isWritten
    · obtain rfl := Option.some.inj isWritten
      exact Or.inr (Or.inl ⟨isNotice, before, ready, by assumption⟩)
    · cases isWritten
  · rename_i unbegun unwritten
    split at isReady
    · cases isReady
    · refine Or.inr (Or.inr ⟨isReady, ?_⟩)
      cases isNotice : request.notice? answer with
      | none => rfl
      | some notice =>
        cases notice with
        | begun stepRun => exact absurd isNotice (unbegun stepRun)
        | written stepRun => exact absurd isNotice (unwritten stepRun)
        | found | read => rfl

theorem launchedIn_append {ι : Type} (turns : List (Turn ι)) (turn : Turn ι) :
    launchedIn (turns ++ [turn]) = launchedIn turns ++ turn.launched?.toList := by
  cases launches : turn.launched? <;> simp [launchedIn, launches]

/-- A turn in which a job is handed over. -/
theorem Launched.launch (launched : Launched ready? turns world) {job : JobRequest}
    {answer : Except BackendFault JobResponse} {stepRun : StepRun}
    (ready : ready? = some stepRun) (suits : job.Suits stepRun) (same : after.store = world.store) :
    Launched none (turns ++ [⟨(), .launch job, answer, after⟩]) after := by
  have stored : after.store.stepRuns.get? job.stepRunId = some stepRun := by
    rw [same, suits.stepRunId]
    exact launched.ready stepRun ready
  have launchedNow : launchedIn (turns ++ [⟨(), .launch job, answer, after⟩]) =
      launchedIn turns ++ [job] := launchedIn_append _ _
  refine ⟨by rintro _ ⟨⟩, ?_, ?_, by rintro _ ⟨⟩, ?_⟩
  · rw [launchedNow, Increasing, List.pairwise_append]
    refine ⟨launched.increasing, List.pairwise_singleton _ _, fun earlier member last isLast => ?_⟩
    rw [List.mem_singleton.mp isLast, suits.stepRunId, suits.attempt]
    exact launched.behind stepRun ready earlier member
  · intro other member
    rw [launchedNow] at member
    rcases List.mem_append.mp member with earlier | now
    · rw [same]
      exact launched.stored other earlier
    · rw [List.mem_singleton.mp now]
      exact ⟨stepRun, stored, Nat.le_of_eq suits.attempt⟩
  · intro turn member other launches
    rcases List.mem_append.mp member with earlier | now
    · exact launched.suited turn earlier other launches
    · rw [List.mem_singleton.mp now] at launches
      cases launches
      rw [List.mem_singleton.mp now]
      exact ⟨stepRun, stored, suits⟩

/-- A turn in which no job is handed over. -/
theorem Launched.keeps (launched : Launched ready? turns world)
    (sees : ∀ id, sight.shown id = none ∨ sight.shown id = world.store.stepRuns.get? id)
    (does : sight.Does mayAnswer world.store (request.notice? answer) after.store)
    (launches : Turn.launched? ⟨(), request, answer, after⟩ = none) :
    Launched (readied ready? request answer) (turns ++ [⟨(), request, answer, after⟩]) after := by
  have launchedNow : launchedIn (turns ++ [⟨(), request, answer, after⟩]) = launchedIn turns := by
    rw [launchedIn_append, launches, Option.toList_none, List.append_nil]
  have stored : ∀ job ∈ launchedIn turns, ∃ stepRun,
      after.store.stepRuns.get? job.stepRunId = some stepRun ∧ job.attempt ≤ stepRun.attempt ∧
        ∀ begun, request.notice? answer = some (.begun begun) → begun.id = job.stepRunId →
          job.attempt < stepRun.attempt := by
    intro job member
    obtain ⟨stepRun, held, atMost⟩ := launched.stored job member
    obtain ⟨later, heldLater, grows, rises⟩ := does.attempts sees held
    exact ⟨later, heldLater, Nat.le_trans atMost grows,
      fun begun isBegun same => Nat.lt_of_le_of_lt atMost (rises begun isBegun same)⟩
  have told : ∀ notice : Notice, request.notice? answer = some notice →
      after.store.stepRuns.get? notice.stepRun.id = some notice.stepRun := by
    intro notice isNotice
    rw [isNotice] at does
    exact does.get?_told
  refine ⟨fun stepRun isReady => ?_, ?_, ?_, fun stepRun isReady job member same => ?_, ?_⟩
  · rcases ready_cases isReady with begun | ⟨written, _⟩ | ⟨ready, unchanged⟩
    · exact told _ begun
    · exact told _ written
    · rw [does.get?_of_other fun changed change => ?_]
      · exact launched.ready stepRun ready
      · rw [unchanged] at change
        cases change
  · rw [launchedNow]
    exact launched.increasing
  · intro job member
    rw [launchedNow] at member
    obtain ⟨stepRun, held, atMost, _⟩ := stored job member
    exact ⟨stepRun, held, atMost⟩
  · rw [launchedNow] at member
    rcases ready_cases isReady with begun | ⟨written, before, ready, sameId⟩ | ⟨ready, _⟩
    · obtain ⟨later, held, _, rises⟩ := stored job member
      have heldNow := told _ begun
      rw [same] at held
      obtain rfl := Option.some.inj (held.symm.trans heldNow)
      exact rises _ begun same.symm
    · have isStored := launched.ready before ready
      obtain ⟨later, held, grows, _⟩ := does.attempts sees isStored
      have heldNow := told _ written
      rw [sameId] at held
      obtain rfl := Option.some.inj (held.symm.trans heldNow)
      have earlier := launched.behind before ready job member (same.trans sameId.symm)
      exact Nat.lt_of_lt_of_le earlier grows
    · exact launched.behind stepRun ready job member same
  · intro turn member job isLaunched
    rcases List.mem_append.mp member with earlier | now
    · exact launched.suited turn earlier job isLaunched
    · rw [List.mem_singleton.mp now, launches] at isLaunched
      cases isLaunched

theorem Launched.turn (launched : Launched ready? turns world)
    (minded : Minded known sight world) (may : (launching mayAnswer known).may ready? request)
    (keeps : sight.May mayAnswer known request)
    (answers : world.Answers mayAnswer request answer after) :
    Launched (readied ready? request answer) (turns ++ [⟨(), request, answer, after⟩]) after := by
  obtain ⟨_, does, _⟩ := minded.toInterplay.turn () keeps answers
  cases request with
  | launch job =>
    obtain ⟨stepRun, ready, suits⟩ := may job rfl
    obtain ⟨_, rfl⟩ := answers
    exact launched.launch ready suits rfl
  | _ => exact launched.keeps minded.sees does rfl

/-- Whoever invokes the next operation has launched nothing yet. -/
theorem Launched.renewed (launched : Launched ready? turns world) : Launched none turns world :=
  ⟨by rintro _ ⟨⟩, launched.increasing, launched.stored, by rintro _ ⟨⟩,
    launched.suited⟩

theorem Minded.renewed (minded : Minded known sight world) : Minded known .blank world where
  coherent := minded.coherent
  borneOut := fun _ => ⟨(minded.borneOut ()).runs, by rintro _ _ ⟨⟩,
    by rintro _ ⟨⟩⟩
  sees := fun _ => Or.inl rfl
  tokened := minded.tokened

end Chronicle

end Execution

open Execution

/-- Operations one after the other, each cut short anywhere, hand over jobs of increasing attempts for
each step run, with the tokens of these attempts.  What is stored at that time is the same attempt; it
runs and waits for nothing. -/
theorem launches_increase {mayAnswer : (request : Request) → request.Answer → Prop}
    {equipment : Equipment} {origin world : World} {turns : List (Turn Unit)}
    (coherent : origin.store.Coherent) (unbegun : ∀ id, origin.store.stepRuns.get? id = none)
    (chronicle : Chronicle mayAnswer equipment origin turns world) :
    Increasing (launchedIn turns) ∧ ∀ turn ∈ turns, ∀ job, turn.launched? = some job →
      job.idempotencyKey = Digest.attemptKey job.stepRunId job.attempt ∧
        ∃ stepRun, turn.after.store.stepRuns.get? job.stepRunId = some stepRun ∧
          stepRun.attempt = job.attempt ∧ stepRun.status.isTerminal = false ∧
          stepRun.awaitsJob = false := by
  have nothing : Endured mayAnswer equipment origin origin := .start
  have kept := kept_of_endured coherent unbegun nothing
  have heeds : ∀ invocation : Invocation, (invocation.program equipment).Heeds
      ((recordkeeping mayAnswer origin.store.HasRun).and
        (launching mayAnswer origin.store.HasRun)) (Sight.blank, none) fun _ _ => True :=
    fun invocation => ((invocation.keepsRecords equipment).and
      (invocation.launches equipment)).imp fun _ _ _ => trivial
  obtain ⟨_, launched⟩ := chronicle.heeded heeds
    (fun state turns world => Minded origin.store.HasRun state.1 world ∧
      Launched state.2 turns world)
    ⟨⟨.start coherent, fun _ => Or.inl rfl, kept.tokened⟩, by rintro _ ⟨⟩, .nil,
      by rintro _ ⟨⟩, by rintro _ ⟨⟩, by rintro _ ⟨⟩⟩
    (fun _ _ _ held => ⟨held.1.renewed, held.2.renewed⟩)
    (fun state turns world who request answer after held may answers => by
      obtain ⟨credible, minded⟩ := held.1.turn may.1 answers
      exact ⟨⟨_, _⟩, ⟨⟨credible, rfl⟩, credible, rfl⟩, minded,
        held.2.turn held.1 may.2 may.1 answers⟩)
    fun _ _ _ failing held => ⟨held.1.withFailing failing,
      ⟨held.2.ready, held.2.increasing, held.2.stored, held.2.behind, held.2.suited⟩⟩
  refine ⟨launched.increasing, fun turn member job launches => ?_⟩
  obtain ⟨stepRun, held, suits⟩ := launched.suited turn member job launches
  refine ⟨?_, stepRun, held, suits.attempt.symm, ?_, suits.idle⟩
  · rw [suits.stepRunId, suits.attempt]
    exact suits.key
  · rw [suits.running]
    rfl

/-! ### A job that is launched again -/

namespace Example

open Execution

def enteringOnce : List (Turn Unit) × (Unit → Program (Except EngineFault RunOutcome)) × World :=
  World.takeTurns (surroundings accepted) (List.replicate 6 ())
    (fun _ => (execute equipment run.id none).run) world

/-- The first execution is cut short when it has handed the job over. -/
def launchingOnce : List (Turn Unit) × (Unit → Program (Except EngineFault RunOutcome)) × World :=
  World.takeTurns (surroundings accepted) (List.replicate 10 ()) (fun _ => stepping steps)
    enteringOnce.2.2

def enteringAgain : List (Turn Unit) × (Unit → Program (Except EngineFault RunOutcome)) × World :=
  World.takeTurns (surroundings accepted) (List.replicate 4 ())
    (fun _ => (execute equipment run.id (some 10)).run) launchingOnce.2.2

def launchingTwice : List (Turn Unit) × (Unit → Program (Except EngineFault RunOutcome)) × World :=
  World.takeTurns (surroundings accepted) (List.replicate 11 ()) (fun _ => stepping steps)
    enteringAgain.2.2

theorem chronicle_launchingTwice : ∃ turns,
    Chronicle (surroundings accepted).answers equipment world turns launchingTwice.2.2 ∧
      launchedIn turns = launchedIn launchingOnce.1 ++ launchedIn launchingTwice.1 := by
  have least : leastOrder ≤ 10 := by decide
  have entered : Interleaves (surroundings accepted).answers
      (fun _ => (execute equipment run.id none).run) world enteringOnce.1 (fun _ => stepping steps)
      enteringOnce.2.2 := by
    rw [← stepping_steps least]
    exact World.interleaves_takeTurns (surroundings accepted) (List.replicate 6 ()) _ _
  have enteredAgain : Interleaves (surroundings accepted).answers
      (fun _ => (execute equipment run.id (some 10)).run) launchingOnce.2.2 enteringAgain.1
      (fun _ => stepping steps) enteringAgain.2.2 := by
    rw [← stepping_steps (Int.le_refl 10)]
    exact World.interleaves_takeTurns (surroundings accepted) (List.replicate 4 ()) _ _
  have first := entered.trans (World.interleaves_takeTurns _ (List.replicate 10 ()) _ _)
  have second := enteredAgain.trans (World.interleaves_takeTurns _ (List.replicate 11 ()) _ _)
  have once := Chronicle.invoked .start (.execute run.id none) first.forgetful
  have twice := Chronicle.invoked once (.execute run.id (some 10)) second.forgetful
  exact ⟨_, twice, rfl⟩

theorem launches_increase_twice : ∃ turns,
    Chronicle (surroundings accepted).answers equipment world turns launchingTwice.2.2 ∧
      (launchedIn turns).map JobRequest.attempt = [1, 2] ∧ Increasing (launchedIn turns) := by
  obtain ⟨turns, chronicle, launched⟩ := chronicle_launchingTwice
  refine ⟨turns, chronicle, ?_, (launches_increase coherent_store unbegun_world chronicle).1⟩
  rw [launched, List.map_append]
  rfl

end Example

end Vetting
