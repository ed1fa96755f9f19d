import Vetting.Proofs.Digest.Token
import Vetting.Proofs.Run.Sight

/-!
Contract: the operations on a run keep step runs in order.

Owns:
- jobs that leave what has been seen of step runs as it is;
- processing, failing and completing a step in order;
- executing and cancelling a run, and taking in a callback, in order.

Does not own: what order means (`Vetting.Proofs.Run.Sight`).

A step that fails is read again first, and what is read may be the work of somebody else.
Once a program has left a step waiting for its job, it writes it no more.
-/

namespace Vetting.Execution

variable {mayAnswer : (request : Request) → request.Answer → Prop} {known : Uuid → Prop}

/-- The same step runs have been seen and left waiting. -/
structure Sight.Agrees (sight after : Sight) : Prop where
  shown : after.shown = sight.shown
  handed : after.handed = sight.handed

theorem Sight.Agrees.trans {first second third : Sight} (left : first.Agrees second)
    (right : second.Agrees third) : first.Agrees third :=
  ⟨right.shown.trans left.shown, right.handed.trans left.handed⟩

/-! ### Jobs that leave what has been seen as it is -/

section Quiet

variable (mayAnswer known)

/-- Whatever comes of the job, it changes nothing about the step runs that have been seen. -/
def Quiet {ε α : Type} (job : ExceptT ε Program α) : Prop :=
  ∀ sight, Heeds (recordkeeping mayAnswer known) job sight (fun _ => sight.Agrees)
    fun _ => sight.Agrees

variable {mayAnswer known} {ε α β : Type}

theorem quiet_pure (result : α) : Quiet mayAnswer known (pure result : ExceptT ε Program α) :=
  fun _ => ⟨rfl, rfl⟩

theorem Quiet.bind {job : ExceptT ε Program α} {next : α → ExceptT ε Program β}
    (first : Quiet mayAnswer known job) (second : ∀ result, Quiet mayAnswer known (next result)) :
    Quiet mayAnswer known (job >>= next) := by
  intro sight
  rw [heeds_bind]
  refine (first sight).imp (fun result middle agrees => ?_) fun _ _ agrees => agrees
  exact (second result middle).imp (fun _ _ => agrees.trans) fun _ _ => agrees.trans

theorem Quiet.ite {condition : Prop} [Decidable condition] {first second : ExceptT ε Program α}
    (onTrue : Quiet mayAnswer known first) (onFalse : Quiet mayAnswer known second) :
    Quiet mayAnswer known (if condition then first else second) := by
  by_cases holds : condition
  · rw [if_pos holds]
    exact onTrue
  · rw [if_neg holds]
    exact onFalse

/-- After a quiet job everything is as before it. -/
theorem Quiet.then {job : ExceptT ε Program α} {next : α → ExceptT ε Program β} {sight : Sight}
    {good : β → Sight → Prop} {bad : ε → Sight → Prop} (quiet : Quiet mayAnswer known job)
    (fails : ∀ fault after, sight.Agrees after → bad fault after)
    (goesOn : ∀ result after, sight.Agrees after →
      Heeds (recordkeeping mayAnswer known) (next result) after good bad) :
    Heeds (recordkeeping mayAnswer known) (job >>= next) sight good bad := by
  rw [heeds_bind]
  exact (quiet sight).imp goesOn fails

/-- A request whose answer tells about no step run. -/
theorem heeds_silent {sight : Sight} {request : StoreRequest}
    (may : sight.May mayAnswer known (.store request))
    (silent : ∀ answer, (Request.store request).notice? answer = none) :
    Heeds (recordkeeping mayAnswer known) (Job.store request) sight (fun _ => sight.Agrees)
      fun _ => sight.Agrees := by
  refine ⟨may, ?_⟩
  rintro answer after ⟨_, rfl⟩
  rw [silent]
  cases answer <;> exact ⟨rfl, rfl⟩

theorem quiet_store (request : StoreRequest)
    (may : ∀ sight : Sight, sight.May mayAnswer known (.store request))
    (silent : ∀ answer, (Request.store request).notice? answer = none) :
    Quiet mayAnswer known (Job.store request) :=
  fun sight => heeds_silent (may sight) silent

theorem quiet_log (runId : Uuid) (kind : EventKind) :
    Quiet mayAnswer known (Job.log runId kind) := by
  intro sight
  refine ⟨trivial, ?_⟩
  rintro answer after ⟨_, rfl⟩
  exact ⟨rfl, rfl⟩

theorem quiet_stamp : Quiet mayAnswer known Job.stamp := by
  intro sight
  refine ⟨trivial, ?_⟩
  rintro answer after ⟨_, rfl⟩
  exact ⟨rfl, rfl⟩

theorem quiet_now : Quiet mayAnswer known Job.now :=
  quiet_stamp.bind fun _ => quiet_pure _

theorem quiet_run (id : Uuid) : Quiet mayAnswer known (Job.store (.run id)) :=
  quiet_store (.run id) (fun _ => trivial) fun _ => rfl

theorem quiet_collectSignals (runId : Uuid) (before : Int) :
    Quiet mayAnswer known (collectSignals runId before) :=
  (quiet_store (.stepRuns runId) (fun _ => trivial) fun _ => rfl).bind fun _ => quiet_pure _

theorem quiet_countFindings (id : Uuid) : Quiet mayAnswer known (countFindings id) :=
  (quiet_store (.findings id) (fun _ => trivial) fun _ => rfl).bind fun _ => quiet_pure _

theorem quiet_storeSummary (runId : Uuid) : Quiet mayAnswer known (storeSummary runId) := by
  have builds : Quiet mayAnswer known (buildSummary runId) :=
    (quiet_run runId).bind fun _ =>
      (quiet_store (.stepRuns runId) (fun _ => trivial) fun _ => rfl).bind fun _ =>
        (quiet_store (.runFindings runId) (fun _ => trivial) fun _ => rfl).bind fun _ =>
          quiet_now.bind fun _ => quiet_pure _
  exact builds.bind fun summary =>
    (quiet_store (.saveSummary runId summary) (fun _ => trivial) fun _ => rfl).bind fun _ =>
      quiet_pure _

theorem quiet_currentOutcome (runId : Uuid) : Quiet mayAnswer known (currentOutcome runId) :=
  (quiet_run runId).bind fun _ => quiet_pure _

theorem quiet_closeRun (runId : Uuid) (status : RunStatus) (error : Option String) :
    Quiet mayAnswer known (closeRun runId status error) := by
  refine quiet_now.bind fun now => (quiet_store (.closeRun runId status error now)
    (fun _ => trivial) fun _ => rfl).bind fun closed => ?_
  refine .ite ?_ (quiet_currentOutcome runId)
  exact (quiet_log _ _).bind fun _ => (quiet_storeSummary runId).bind fun _ =>
    quiet_currentOutcome runId

theorem quiet_enterRun (runId : Uuid) (resumeFrom : Option Int) :
    Quiet mayAnswer known (enterRun runId resumeFrom) := by
  cases resumeFrom with
  | none =>
    refine quiet_now.bind fun now => (quiet_store (.startRun runId now)
      (fun _ => trivial) fun _ => rfl).bind fun _ => (quiet_run runId).bind fun _ => .ite ?_ ?_
    · exact (quiet_log _ _).bind fun _ => quiet_pure _
    · exact (quiet_log _ _).bind fun _ => quiet_pure _
  | some order =>
    refine (quiet_run runId).bind fun run => .ite ?_ (quiet_pure _)
    exact (quiet_log _ _).bind fun _ => quiet_pure _

theorem quiet_ignoreCallback (stepRun : StepRun) (reason : String) (duplicate : Bool) :
    Quiet mayAnswer known (ignoreCallback stepRun reason duplicate) :=
  (quiet_log _ _).bind fun _ => (quiet_run _).bind fun _ => quiet_pure _

theorem quiet_followCallback (stepRun : StepRun) (result : StepResult) :
    Quiet mayAnswer known (followCallback stepRun result) := by
  have reports : ∀ resumeFrom, Quiet mayAnswer known do
      return (⟨result, resumeFrom, false,
        (← Job.store (.run stepRun.runId)).status⟩ : CallbackOutcome) :=
    fun _ => (quiet_run _).bind fun _ => quiet_pure _
  refine (quiet_log _ _).bind fun _ => (quiet_run _).bind fun run => ?_
  refine .ite ?_ (.ite ?_ ?_)
  · exact (quiet_storeSummary _).bind fun _ => reports _
  · exact reports _
  · exact (quiet_closeRun _ _ _).bind fun _ => reports _

theorem quiet_cancel (runId : Uuid) : Quiet mayAnswer known (cancel runId) := by
  refine (quiet_run _).bind fun run => .ite (quiet_pure _) ?_
  refine (quiet_store (.flagCancel runId) (fun _ => trivial) fun _ => rfl).bind fun _ =>
    (quiet_log _ _).bind fun _ => ?_
  refine (quiet_store (.stepRuns runId) (fun _ => trivial) fun _ => rfl).bind fun stepRuns => ?_
  exact .ite (quiet_closeRun _ _ _) (quiet_pure _)

end Quiet

/-! ### Writing a step run -/

/-- A program may write the step run, whatever it has left of it. -/
def Sight.Free (mayAnswer : (request : Request) → request.Answer → Prop) (sight : Sight)
    (id : Uuid) : Prop :=
  sight.handed id → MayComplete mayAnswer

/-- The step run is running as it has been seen, and may be written. -/
structure Sight.Holds (mayAnswer : (request : Request) → request.Answer → Prop) (sight : Sight)
    (stepRun : StepRun) : Prop where
  shown : sight.shown stepRun.id = some stepRun
  running : stepRun.status = .running
  free : sight.Free mayAnswer stepRun.id

section Writing

variable {sight after : Sight} {stepRun : StepRun} {output : StepOutput}

theorem Sight.Agrees.free (agrees : sight.Agrees after) {id : Uuid}
    (free : sight.Free mayAnswer id) : after.Free mayAnswer id := by
  rw [Sight.Free, agrees.handed]
  exact free

theorem Sight.Agrees.holds (agrees : sight.Agrees after) (holds : sight.Holds mayAnswer stepRun) :
    after.Holds mayAnswer stepRun :=
  ⟨by rw [agrees.shown, holds.shown], holds.running, agrees.free holds.free⟩

theorem heeds_record {id : Uuid} {seen : StepRun} (isShown : sight.shown id = some seen)
    (runId : Uuid) (issues : List Issue) (mode : RecordMode) :
    Heeds (recordkeeping mayAnswer known) (record runId id issues mode) sight
      (fun _ => sight.Agrees) fun _ => sight.Agrees := by
  refine quiet_stamp.then (fun _ _ agrees => agrees) fun stamp middle agrees => ?_
  have may : ∃ seen, middle.shown id = some seen := ⟨seen, by rw [agrees.shown, isShown]⟩
  cases mode <;> refine (heeds_bind _ _).mpr (Heeds.imp (heeds_silent ?_ fun _ => rfl)
    (fun _ _ => agrees.trans) fun _ _ => agrees.trans) <;> exact may

theorem heeds_update {changed : StepRun} (holds : sight.Holds mayAnswer stepRun)
    (moves : stepRun.Moves changed) :
    Heeds (recordkeeping mayAnswer known) (Job.store (.updateStepRun changed)) sight
      (fun _ after => after = sight.noting (some (.written changed))) fun _ => sight.Agrees := by
  refine ⟨⟨stepRun, moves.id ▸ holds.shown, moves, moves.id ▸ holds.free⟩, ?_⟩
  rintro answer after ⟨_, rfl⟩
  cases answer with
  | ok => rfl
  | error fault => exact ⟨rfl, rfl⟩

theorem heeds_endStep (holds : sight.Holds mayAnswer stepRun) (retains : stepRun.Retains output)
    (status : StepStatus) (error : Option String) :
    Heeds (recordkeeping mayAnswer known) (endStep stepRun status output error) sight
      (fun _ _ => True) fun _ => sight.Agrees := by
  refine quiet_now.then (fun _ _ agrees => agrees) fun now middle agrees => ?_
  rw [endStepAt]
  split
  · exact agrees
  · rename_i goesOn
    have terminal : status.isTerminal = true := by
      simp only [Bool.or_eq_true, Bool.not_eq_true', not_or, Bool.not_eq_false] at goesOn
      exact goesOn.1
    have moves : stepRun.Moves (stepRun.ended status output error now) := by
      refine ⟨rfl, rfl, rfl, rfl, holds.running, retains, ?_⟩
      rintro rfl
      cases terminal
    refine (heeds_bind _ _).mpr
      ((heeds_update (agrees.holds holds) moves).imp (fun _ _ _ => ?_) fun _ _ => agrees.trans)
    exact (heeds_bind _ _).mpr ((heeds_log _ _).mpr ⟨trivial, fun _ _ _ => trivial⟩)

theorem heeds_finish (holds : sight.Holds mayAnswer stepRun) (retains : stepRun.Retains output)
    (status : StepStatus) (error : Option String) :
    Heeds (recordkeeping mayAnswer known)
      (do return StepResult.ofStepRun (← endStep stepRun status output error)) sight
      (fun _ _ => True) fun _ => sight.Agrees :=
  (heeds_bind _ _).mpr (heeds_endStep holds retains status error)

/-- The findings of a step are recorded before it goes on. -/
theorem heeds_recorded {id : Uuid} {seen : StepRun} (isShown : sight.shown id = some seen)
    (runId : Uuid) (issues : List Issue) (mode : RecordMode) {α : Type} {next : Recorded → Job α}
    {good : α → Sight → Prop} {bad : EngineFault → Sight → Prop}
    (fails : ∀ fault after, sight.Agrees after → bad fault after)
    (goesOn : ∀ recorded after, sight.Agrees after →
      Heeds (recordkeeping mayAnswer known) (next recorded) after good bad) :
    Heeds (recordkeeping mayAnswer known) (record runId id issues mode >>= next) sight good bad :=
  (heeds_bind _ _).mpr ((heeds_record isShown runId issues mode).imp goesOn fails)

/-- The findings are counted, and the step ends. -/
theorem heeds_countAndFinish (holds : sight.Holds mayAnswer stepRun) (status : StepStatus)
    (error : Option String) {output : SeverityCounts → StepOutput}
    (retains : ∀ counts, stepRun.Retains (output counts)) :
    Heeds (recordkeeping mayAnswer known) (do
        let counts ← countFindings stepRun.id
        return StepResult.ofStepRun (← endStep stepRun status (output counts) error)) sight
      (fun _ _ => True) fun _ => sight.Agrees := by
  refine (quiet_countFindings _).then (fun _ _ => id) fun counts after agrees => ?_
  exact (heeds_finish (agrees.holds holds) (retains counts) _ _).imp (fun _ _ _ => trivial)
    fun _ _ => agrees.trans

theorem heeds_failWithIssue (holds : sight.Holds mayAnswer stepRun) (issue : Issue)
    (retains : stepRun.Retains output) :
    Heeds (recordkeeping mayAnswer known) (failWithIssue stepRun issue output) sight
      (fun _ _ => True) fun _ => sight.Agrees := by
  refine heeds_recorded holds.shown _ _ _ (fun _ _ => id) fun recorded after agrees => ?_
  refine (heeds_countAndFinish (agrees.holds holds) _ _ fun counts => ?_).imp
    (fun _ _ _ => trivial) fun _ _ => agrees.trans
  exact retains

/-- A step run is read, and may be written as before. -/
theorem heeds_stepRun {id : Uuid} (free : sight.Free mayAnswer id)
    {good : StepRun → Sight → Prop} {bad : EngineFault → Sight → Prop}
    (reads : ∀ stepRun after, stepRun.id = id → after.shown stepRun.id = some stepRun →
      after.Free mayAnswer id → good stepRun after)
    (fails : ∀ fault after, after.Free mayAnswer id → bad fault after) :
    Heeds (recordkeeping mayAnswer known) (Job.store (.stepRun id)) sight good bad := by
  refine ⟨trivial, ?_⟩
  rintro answer after ⟨credible, rfl⟩
  cases answer with
  | ok stepRun => exact reads stepRun _ credible (sight.showing_self stepRun) free
  | error fault => exact fails fault _ free

/-- A step run that has just been read fails. -/
theorem heeds_failRead (isShown : sight.shown stepRun.id = some stepRun)
    (isOpen : stepRun.status.isTerminal = false) (free : sight.Free mayAnswer stepRun.id)
    (issue : Issue) :
    Heeds (recordkeeping mayAnswer known) (failWithIssue stepRun issue stepRun.output) sight
      (fun _ _ => True) fun _ after => after.Free mayAnswer stepRun.id :=
  (heeds_failWithIssue ⟨isShown, running_of_not_terminal isOpen, free⟩ issue
    (StepRun.retains_of_job rfl)).imp (fun _ _ _ => trivial) fun _ _ agrees => agrees.free free

theorem heeds_failCurrent {id : Uuid} (free : sight.Free mayAnswer id) (code detail : String) :
    Heeds (recordkeeping mayAnswer known) (failCurrent id code detail) sight
      (fun _ _ => True) fun _ after => after.Free mayAnswer id := by
  refine (heeds_bind _ _).mpr (heeds_stepRun free (fun current after same isShown free => ?_)
    fun _ _ free => free)
  subst same
  refine heeds_ite.mpr ⟨fun _ => trivial, fun isOpen => ?_⟩
  exact heeds_failRead isShown (by simpa using isOpen) free _

theorem heeds_failStep (free : sight.Free mayAnswer stepRun.id) (fault : EngineFault) :
    Heeds (recordkeeping mayAnswer known) (failStep stepRun fault) sight (fun _ _ => True)
      fun _ _ => True := by
  refine (heeds_bind _ _).mpr (heeds_stepRun free (fun latest after same isShown free => ?_)
    fun _ _ _ => trivial)
  rw [← same] at free
  refine heeds_ite.mpr ⟨fun isOpen => (heeds_bind _ _).mpr ?_, fun _ => trivial⟩
  exact (heeds_failRead isShown (by simpa using isOpen) free _).imp (fun _ _ _ => trivial)
    fun _ _ _ => trivial

/-! ### Processing -/

theorem heeds_contain {id : Uuid} {job : Job StepResult}
    (heeds : Heeds (recordkeeping mayAnswer known) job sight (fun _ _ => True)
      fun _ after => after.Free mayAnswer id) :
    Heeds (recordkeeping mayAnswer known) (contain id job) sight (fun _ _ => True)
      fun _ after => after.Free mayAnswer id := by
  refine (heeds_tryCatch _ _).mpr (heeds.imp (fun _ _ _ => trivial) fun fault after free => ?_)
  split
  · exact heeds_failCurrent free _ _
  · exact heeds_failCurrent free _ _
  · exact free

/-- What is settled without asking for anything. -/
theorem heeds_settled {α β : Type} (given : Except EngineFault α) {next : α → Job β}
    {good : β → Sight → Prop} {bad : EngineFault → Sight → Prop} (fails : ∀ fault, bad fault sight)
    (goesOn : ∀ result, Heeds (recordkeeping mayAnswer known) (next result) sight good bad) :
    Heeds (recordkeeping mayAnswer known) (ExceptT.mk (pure given) >>= next) sight good bad := by
  refine (heeds_bind _ _).mpr ((heeds_given _).mpr ?_)
  cases given with
  | error fault => exact fails fault
  | ok result => exact goesOn result

theorem heeds_completeWith (holds : sight.Holds mayAnswer stepRun) (equipment : Equipment)
    (run : Run) (step : Step) {base : StepOutput} (retains : stepRun.Retains base)
    (envelope : Envelope) (external : ExternalValidator) (signals : Scope.Signals) :
    Heeds (recordkeeping mayAnswer known)
      (completeWith equipment run step stepRun base envelope external signals) sight
      (fun _ _ => True) fun _ => sight.Agrees := by
  refine heeds_settled _ (fun _ => ⟨rfl, rfl⟩) fun found => ?_
  refine heeds_recorded holds.shown _ _ _ (fun _ _ => id) fun recorded after agrees => ?_
  refine (heeds_countAndFinish (agrees.holds holds) _ _ fun counts => ?_).imp
    (fun _ _ _ => trivial) fun _ _ => agrees.trans
  exact retains

section Context

variable {context : StepContext} (holds : sight.Holds mayAnswer context.stepRun)
  (equipment : Equipment)

include holds

theorem heeds_processInline :
    Heeds (recordkeeping mayAnswer known) (processInline equipment context) sight
      (fun _ _ => True) fun _ => sight.Agrees := by
  refine heeds_settled _ (fun _ => ⟨rfl, rfl⟩) fun found => ?_
  refine heeds_settled _ (fun _ => ⟨rfl, rfl⟩) fun resolved => ?_
  cases resolved with
  | external => exact ⟨rfl, rfl⟩
  | inline =>
    refine (heeds_bind _ _).mpr ((heeds_validate _ _).mpr ⟨trivial, ?_⟩)
    rintro answer after ⟨_, rfl⟩
    have agrees : sight.Agrees (sight.noting none) := ⟨rfl, rfl⟩
    cases answer with
    | error fault => exact agrees
    | ok outcome =>
      refine heeds_recorded (agrees.holds holds).shown _ _ _ (fun _ _ => agrees.trans)
        fun recorded last later => ?_
      exact (heeds_finish ((agrees.trans later).holds holds) (StepRun.retains_of_none _ rfl) _ _).imp
        (fun _ _ _ => trivial) fun _ _ => (agrees.trans later).trans

theorem heeds_processAction :
    Heeds (recordkeeping mayAnswer known) (processAction equipment context) sight
      (fun _ _ => True) fun _ => sight.Agrees := by
  refine heeds_settled _ (fun _ => ⟨rfl, rfl⟩) fun found => ?_
  refine heeds_settled _ (fun _ => ⟨rfl, rfl⟩) fun _ => ?_
  refine (heeds_bind _ _).mpr ((heeds_act _ _).mpr ⟨trivial, ?_⟩)
  rintro answer after ⟨_, rfl⟩
  have agrees : sight.Agrees (sight.noting none) := ⟨rfl, rfl⟩
  cases answer with
  | error fault => exact agrees
  | ok outcome =>
    refine heeds_recorded (agrees.holds holds).shown _ _ _ (fun _ _ => agrees.trans)
      fun recorded last later => ?_
    exact (heeds_finish ((agrees.trans later).holds holds) (StepRun.retains_of_none _ rfl) _ _).imp
      (fun _ _ _ => trivial) fun _ _ => (agrees.trans later).trans

end Context

/-- A step keeps what it has left behind so far, and goes on. -/
theorem heeds_storeInterim {α : Type} {next : StepRun → Job α} {good : α → Sight → Prop}
    (holds : sight.Holds mayAnswer stepRun)
    (isKey : output.jobKey? = some (Digest.attemptKey stepRun.id stepRun.attempt))
    (goesOn : ∀ after : Sight, after.shown stepRun.id = some (stepRun.leaving output) →
      (after.handed stepRun.id → (stepRun.leaving output).Waits) →
      Heeds (recordkeeping mayAnswer known) (next (stepRun.leaving output)) after good
        fun _ after => after.Free mayAnswer stepRun.id) :
    Heeds (recordkeeping mayAnswer known) (storeInterim stepRun output >>= next) sight good
      fun _ after => after.Free mayAnswer stepRun.id := by
  have moves : stepRun.Moves (stepRun.leaving output) := by
    refine ⟨rfl, rfl, rfl, rfl, holds.running, fun key hasKey => ?_, fun _ => isKey⟩
    exact Or.inr (Option.some.inj (hasKey.symm.trans isKey))
  rw [storeInterim, bind_assoc]
  refine (heeds_bind _ _).mpr ((heeds_update holds moves).imp ?_ fun _ _ agrees =>
    agrees.free holds.free)
  rintro _ after rfl
  rw [pure_bind]
  refine goesOn _ (sight.showing_self (stepRun.leaving output)) fun handed => ?_
  exact (Function.update_self stepRun.id (stepRun.leaving output).Waits sight.handed) ▸ handed

theorem jobKey?_interimOutput (equipment : Equipment) (validator : Validator)
    (report : Rule.Report) (counts : SeverityCounts) (stepRunId : Uuid) (attempt : Nat) :
    (interimOutput equipment validator report counts
      (Digest.attemptKey stepRunId attempt)).jobKey? =
        some (Digest.attemptKey stepRunId attempt) := by
  simp [StepOutput.jobKey?, interimOutput, Digest.attemptKey_ne_empty]

/-- A job that has not been handed over has no name. -/
theorem not_waits_interimOutput (stepRun : StepRun) (equipment : Equipment) (validator : Validator)
    (report : Rule.Report) (counts : SeverityCounts) (key : String) :
    ¬ (stepRun.leaving (interimOutput equipment validator report counts key)).Waits :=
  fun waits => nomatch waits.2

theorem jobKey?_withResponse (output : StepOutput) (response : JobResponse) :
    (withResponse output response).jobKey? = output.jobKey? := by
  cases isJob : output.job? <;> simp [StepOutput.jobKey?, withResponse, isJob]

theorem heeds_afterLaunch {context : StepContext} {left : StepOutput} {response : JobResponse}
    (holds : sight.Holds mayAnswer (context.stepRun.leaving left))
    (isKey : left.jobKey? =
      some (Digest.attemptKey context.stepRun.id context.stepRun.attempt))
    (completes : response.isComplete = true → MayComplete mayAnswer) (equipment : Equipment)
    (external : ExternalValidator) :
    Heeds (recordkeeping mayAnswer known)
      (afterLaunch equipment context external (context.stepRun.leaving left) left response) sight
      (fun _ _ => True) fun _ after => after.Free mayAnswer context.stepRun.id := by
  have sameKey : (withResponse left response).jobKey? =
      some (Digest.attemptKey context.stepRun.id context.stepRun.attempt) := by
    rw [jobKey?_withResponse, isKey]
  refine heeds_ite.mpr ⟨fun _ => ?_, fun complete => ?_⟩
  · refine heeds_storeInterim holds sameKey fun last _ _ => ?_
    exact (heeds_bind _ _).mpr ((heeds_log _ _).mpr ⟨trivial, fun _ _ _ => trivial⟩)
  · have mayComplete : MayComplete mayAnswer := completes (by simpa using complete)
    cases response.envelope? with
    | some envelope =>
      refine (heeds_completeWith holds equipment _ _ ?_ envelope external _).imp
        (fun _ _ _ => trivial) fun _ _ _ _ => mayComplete
      exact fun key hasKey => Or.inr (Option.some.inj (hasKey.symm.trans sameKey))
    | none =>
      refine heeds_storeInterim holds sameKey fun last isShown _ => ?_
      have holds : last.Holds mayAnswer
          ((context.stepRun.leaving left).leaving (withResponse left response)) :=
        ⟨isShown, holds.running, fun _ => mayComplete⟩
      refine (heeds_failWithIssue holds _ ?_).imp (fun _ _ _ => trivial)
        fun _ _ _ _ => mayComplete
      exact StepRun.retains_of_job rfl

theorem heeds_processExternal {context : StepContext}
    (holds : sight.Holds mayAnswer context.stepRun) (equipment : Equipment) :
    Heeds (recordkeeping mayAnswer known) (processExternal equipment context) sight
      (fun _ _ => True) fun _ after => after.Free mayAnswer context.stepRun.id := by
  refine heeds_settled _ (fun _ => holds.free) fun found => ?_
  refine heeds_settled _ (fun _ => holds.free) fun external => ?_
  refine (heeds_bind _ _).mpr ((heeds_backendAvailable).mpr ⟨trivial, ?_⟩)
  rintro available after ⟨_, rfl⟩
  have agrees : sight.Agrees (sight.noting none) := ⟨rfl, rfl⟩
  refine heeds_ite.mpr ⟨fun _ => holds.free, fun _ => ?_⟩
  refine heeds_recorded (agrees.holds holds).shown _ _ _
    (fun _ _ later => later.free holds.free) fun recorded middle later => ?_
  refine heeds_storeInterim ((agrees.trans later).holds holds) (jobKey?_interimOutput _ _ _ _ _ _)
    fun interim isShown handed => ?_
  have isKey := jobKey?_interimOutput equipment found.1
    (equipment.checker.check found.2.assertions ⟨.input, context.submission.payload,
      found.1.catalog, context.signals⟩) recorded.severityCounts context.stepRun.id
    context.stepRun.attempt
  have unnamed := not_waits_interimOutput context.stepRun equipment found.1
    (equipment.checker.check found.2.assertions ⟨.input, context.submission.payload,
      found.1.catalog, context.signals⟩) recorded.severityCounts
    (Digest.attemptKey context.stepRun.id context.stepRun.attempt)
  dsimp only
  generalize interimOutput equipment found.1 _ _ _ = left at isShown handed isKey unnamed ⊢
  refine (heeds_bind _ _).mpr ((heeds_launch _).mpr ⟨trivial, ?_⟩)
  rintro answer after ⟨may, rfl⟩
  have free : ∀ after : Sight, interim.Agrees after →
      after.Free mayAnswer context.stepRun.id := fun after agrees =>
    agrees.free fun no => absurd (handed no) unnamed
  have agrees : interim.Agrees (interim.noting none) := ⟨rfl, rfl⟩
  cases answer with
  | error fault => exact free _ agrees
  | ok response =>
    have holds : (interim.noting none).Holds mayAnswer (context.stepRun.leaving left) :=
      ⟨isShown, holds.running, free _ agrees⟩
    exact heeds_afterLaunch holds isKey (fun complete => ⟨_, response, may, complete⟩) equipment
      external

theorem heeds_dispatch {context : StepContext} (holds : sight.Holds mayAnswer context.stepRun)
    (equipment : Equipment) :
    Heeds (recordkeeping mayAnswer known) (dispatch equipment context) sight
      (fun _ _ => True) fun _ after => after.Free mayAnswer context.stepRun.id := by
  refine heeds_contain (heeds_settled _ (fun _ => holds.free) fun processor => ?_)
  cases processor with
  | inline =>
    exact (heeds_processInline holds equipment).imp (fun _ _ _ => trivial)
      fun _ _ agrees => agrees.free holds.free
  | external => exact heeds_processExternal holds equipment
  | action =>
    exact (heeds_processAction holds equipment).imp (fun _ _ _ => trivial)
      fun _ _ agrees => agrees.free holds.free

theorem heeds_completeContained {id : Uuid} (free : sight.Free mayAnswer id)
    (equipment : Equipment) (envelope : Envelope) :
    Heeds (recordkeeping mayAnswer known) (completeContained equipment id envelope) sight
      (fun _ _ => True) fun _ after => after.Free mayAnswer id := by
  refine heeds_contain ((heeds_bind _ _).mpr (heeds_stepRun free
    (fun stepRun after same isShown free => ?_) fun _ _ free => free))
  subst same
  refine heeds_ite.mpr ⟨fun _ => trivial, fun isOpen => ?_⟩
  have holds : after.Holds mayAnswer stepRun :=
    ⟨isShown, running_of_not_terminal (by simpa using isOpen), free⟩
  refine (quiet_run _).then (fun _ _ agrees => agrees.free free) fun run middle agrees => ?_
  cases run.stepByKey? stepRun.stepKey with
  | none => exact agrees.free free
  | some step =>
    refine heeds_settled _ (fun _ => agrees.free free) fun found => ?_
    refine heeds_settled _ (fun _ => agrees.free free) fun external => ?_
    refine (quiet_collectSignals _ _).then (fun _ _ later => (agrees.trans later).free free)
      fun signals last later => ?_
    have holds := (agrees.trans later).holds holds
    exact (heeds_completeWith holds equipment run step (StepRun.retains_of_job rfl) envelope external
      signals).imp (fun _ _ _ => trivial) fun _ _ agrees => agrees.free holds.free

/-! ### Taking the steps of a run -/

/-- The step run that is at work when a fault comes up may be written. -/
def Sight.Spares (mayAnswer : (request : Request) → request.Answer → Prop)
    (interruption : Interruption) (sight : Sight) : Prop :=
  ∀ stepRun, interruption.current = some stepRun → sight.Free mayAnswer stepRun.id

theorem holds_begun (running : stepRun.status = .running) :
    (sight.noting (some (.begun stepRun))).Holds mayAnswer stepRun :=
  ⟨sight.showing_self stepRun, running, fun handed =>
    absurd handed (by simp [Sight.noting])⟩

theorem heeds_beginStep {runId : Uuid} (isKnown : known runId) (step : Step) :
    Heeds (recordkeeping mayAnswer known) (beginStep runId step) sight
      (fun handle after => handle.execute = true → after.Holds mayAnswer handle.stepRun)
      fun _ _ => True := by
  refine quiet_now.then (fun _ _ _ => trivial) fun now middle _ => ?_
  refine (heeds_bind _ _).mpr ((heeds_store _).mpr ⟨isKnown, ?_⟩)
  rintro answer after ⟨credible, rfl⟩
  cases answer with
  | error fault => trivial
  | ok acquisition =>
    cases acquisition with
    | created stepRun =>
      refine (quiet_log _ _).then (fun _ _ _ => trivial) fun _ last agrees _ => ?_
      exact agrees.holds (holds_begun credible)
    | existing stepRun =>
      refine heeds_ite.mpr ⟨fun _ no => (nomatch no), fun begins => ?_⟩
      simp only [Bool.or_eq_true, not_or, Bool.not_eq_true] at begins
      refine (heeds_bind _ _).mpr ((heeds_store _).mpr
        ⟨⟨stepRun, rfl, rfl, rfl, running_of_not_terminal begins.1, begins.2⟩, ?_⟩)
      rintro answer after ⟨credible, rfl⟩
      cases answer with
      | error fault => trivial
      | ok restarted? =>
        cases restarted? with
        | none =>
          refine (heeds_bind _ _).mpr ((heeds_store _).mpr ⟨trivial, fun answer after _ => ?_⟩)
          cases answer with
          | error fault => trivial
          | ok latest => exact fun no => nomatch no
        | some restarted =>
          refine (quiet_log _ _).then (fun _ _ _ => trivial) fun _ last agrees _ => ?_
          exact agrees.holds (holds_begun credible.2)

theorem heeds_takeStep {run : Run} (isKnown : known run.id) (equipment : Equipment)
    (submission : Submission) (step : Step) :
    Heeds (recordkeeping mayAnswer known) (takeStep equipment run submission step) sight
      (fun _ _ => True) (Sight.Spares mayAnswer) := by
  refine (heeds_bind _ _).mpr ((heeds_during _ _).mpr ((heeds_beginStep isKnown step).imp
    (fun handle after begun => ?_) ?_))
  · refine heeds_ite.mpr ⟨fun executes => ?_, fun _ => trivial⟩
    have holds := begun executes
    refine (heeds_during _ _).mpr ((quiet_collectSignals _ _).then ?_ fun signals middle agrees => ?_)
    · rintro _ last agrees _ ⟨⟩
      exact agrees.free holds.free
    · let context : StepContext := ⟨run, step, handle.stepRun, submission, signals⟩
      have holds : middle.Holds mayAnswer context.stepRun := agrees.holds holds
      refine (heeds_bind _ _).mpr ((heeds_dispatch holds equipment).imp (fun _ _ _ => trivial) ?_)
      rintro _ last free _ ⟨⟩
      exact free
  · rintro _ _ _ _ ⟨⟩

theorem heeds_takeSteps {run : Run} (isKnown : known run.id) (equipment : Equipment)
    (submission : Submission) (steps : List Step) :
    Heeds (recordkeeping mayAnswer known) (takeSteps equipment run submission steps) sight
      (fun _ _ => True) (Sight.Spares mayAnswer) := by
  induction steps generalizing sight with
  | nil => trivial
  | cons step rest inductionHypothesis =>
    have flag : Quiet mayAnswer known (Job.store (.cancelFlag run.id)) :=
      quiet_store _ (fun _ => trivial) fun _ => rfl
    refine (heeds_bind _ _).mpr ((heeds_during _ _).mpr ((flag sight).imp
      (fun canceled middle _ => ?_) ?_))
    · refine heeds_ite.mpr ⟨fun _ => trivial, fun _ => ?_⟩
      refine (heeds_bind _ _).mpr ((heeds_takeStep isKnown equipment submission step).imp
        (fun progress? after _ => ?_) fun _ _ spares => spares)
      cases progress? with
      | some progress => trivial
      | none => exact inductionHypothesis
    · rintro _ _ _ _ ⟨⟩

theorem heeds_drive {run : Run} (isKnown : known run.id) (equipment : Equipment) (start : Int) :
    Heeds (recordkeeping mayAnswer known) (drive equipment run start) sight
      (fun _ _ => True) (Sight.Spares mayAnswer) := by
  have reads : Quiet mayAnswer known (Job.store (.submission run.submissionId)) :=
    quiet_store _ (fun _ => trivial) fun _ => rfl
  refine (heeds_bind _ _).mpr ((heeds_during _ _).mpr ((reads sight).imp
    (fun submission middle _ => heeds_takeSteps isKnown equipment submission _) ?_))
  rintro _ _ _ _ ⟨⟩

end Writing

/-! ### The operations on a run -/

section Operations

variable {sight : Sight}

/-- The result of a quiet job does not matter. -/
theorem Quiet.heeds {ε α : Type} {job : ExceptT ε Program α} (quiet : Quiet mayAnswer known job) :
    Heeds (recordkeeping mayAnswer known) job sight (fun _ _ => True) fun _ _ => True :=
  (quiet sight).imp (fun _ _ _ => trivial) fun _ _ _ => trivial

theorem heeds_failRun {interruption : Interruption} (spares : sight.Spares mayAnswer interruption)
    (runId : Uuid) :
    Heeds (recordkeeping mayAnswer known) (failRun runId interruption) sight (fun _ _ => True)
      fun _ _ => True := by
  have closes : ∀ middle : Sight, Heeds (recordkeeping mayAnswer known)
      (closeRun runId .failed (some genericFailure)) middle (fun _ _ => True) fun _ _ => True :=
    fun _ => (quiet_closeRun _ _ _).heeds
  rw [failRun]
  cases isCurrent : interruption.current with
  | none => exact closes _
  | some stepRun =>
    refine (heeds_bind _ _).mpr ((heeds_tryCatch _ _).mpr ?_)
    exact (heeds_failStep (spares stepRun isCurrent) _).imp (fun _ after _ => closes after)
      fun _ after _ => closes after

/-- Executing a run, from whatever step on, keeps step runs in order. -/
theorem heeds_execute (equipment : Equipment) (runId : Uuid) (resumeFrom : Option Int) :
    Heeds (recordkeeping mayAnswer known) (execute equipment runId resumeFrom) sight
      (fun _ _ => True) fun _ _ => True := by
  refine (quiet_enterRun _ _).then (fun _ _ _ => trivial) fun entered middle _ => ?_
  cases entered with
  | some outcome => trivial
  | none =>
    refine (heeds_bind _ _).mpr ((heeds_store _).mpr ⟨trivial, ?_⟩)
    rintro answer after ⟨credible, rfl⟩
    cases answer with
    | error fault => trivial
    | ok run =>
      have isKnown : known run.id := credible.1 ▸ credible.2
      refine (heeds_bind _ _).mpr ((heeds_lift _).mpr (program_heeds_run.mpr
        ((heeds_drive isKnown equipment _).imp (fun progress last _ => ?_)
          fun interruption last spares => heeds_failRun spares runId)))
      cases progress with
      | completed | failed | canceled => exact (quiet_closeRun _ _ _).heeds
      | pending | yielded => exact (quiet_currentOutcome _).heeds

theorem heeds_cancel (runId : Uuid) :
    Heeds (recordkeeping mayAnswer known) (cancel runId) sight (fun _ _ => True) fun _ _ => True :=
  (quiet_cancel runId).heeds

theorem heeds_recoverCallback {stepRun : StepRun} (free : sight.Free mayAnswer stepRun.id)
    (fault : EngineFault) :
    Heeds (recordkeeping mayAnswer known) (recoverCallback stepRun fault) sight (fun _ _ => True)
      fun _ _ => True := by
  have reports : ∀ middle : Sight, Heeds (recordkeeping mayAnswer known) (do
      let latest ← Job.store (.stepRun stepRun.id)
      return (⟨.ofStepRun latest, none, false,
        (← Job.store (.run stepRun.runId)).status⟩ : CallbackOutcome)) middle
      (fun _ _ => True) fun _ _ => True := by
    intro middle
    refine (heeds_bind _ _).mpr ((heeds_store _).mpr ⟨trivial, fun answer after _ => ?_⟩)
    cases answer with
    | error fault => trivial
    | ok latest => exact ((quiet_run _).bind fun _ => quiet_pure _).heeds
  refine (quiet_run _).then (fun _ _ _ => trivial) fun run middle agrees => ?_
  refine heeds_ite.mpr ⟨fun _ => ?_, fun _ => ?_⟩
  · refine (heeds_bind _ _).mpr ((heeds_failStep (agrees.free free) fault).imp
      (fun _ last _ => ?_) fun _ _ _ => trivial)
    exact (quiet_storeSummary _).then (fun _ _ _ => trivial) fun _ _ _ => reports _
  · refine (heeds_bind _ _).mpr ((heeds_failRun ?_ _).imp (fun _ last _ => reports last)
      fun _ _ _ => trivial)
    rintro _ ⟨⟩
    exact agrees.free free

theorem heeds_applyCallback {stepRun : StepRun} (free : sight.Free mayAnswer stepRun.id)
    (equipment : Equipment) (envelope : Envelope) :
    Heeds (recordkeeping mayAnswer known) (applyCallback equipment stepRun envelope) sight
      (fun _ _ => True) fun _ _ => True := by
  refine heeds_ite.mpr ⟨fun _ => (quiet_ignoreCallback _ _ _).heeds, fun _ => ?_⟩
  refine (heeds_bind _ _).mpr ((heeds_lift _).mpr (program_heeds_run.mpr ?_))
  exact (heeds_completeContained free equipment envelope).imp
    (fun _ _ _ => (quiet_followCallback _ _).heeds) fun fault _ free => heeds_recoverCallback free fault

/-- A callback keeps step runs in order, if it is taken in by somebody who has left no job waiting. -/
theorem heeds_completeCallback (equipment : Equipment) (id : Uuid) (envelope : Envelope)
    (key? : Option String) (free : sight.Free mayAnswer id) :
    Heeds (recordkeeping mayAnswer known) (completeCallback equipment id envelope key?) sight
      (fun _ _ => True) fun _ _ => True := by
  refine (heeds_bind _ _).mpr (heeds_stepRun free (fun stepRun after same isShown free => ?_)
    fun _ _ _ => trivial)
  subst same
  cases key? with
  | none => exact heeds_applyCallback free equipment envelope
  | some key =>
    refine heeds_ite.mpr ⟨fun _ => (quiet_ignoreCallback _ _ _).heeds, fun _ => ?_⟩
    refine quiet_now.then (fun _ _ _ => trivial) fun now middle agrees => ?_
    have receipt : Quiet mayAnswer known (Job.store (.recordCallback key stepRun.id now)) :=
      quiet_store _ (fun _ => trivial) fun _ => rfl
    refine receipt.then (fun _ _ _ => trivial) fun isNew last later => ?_
    refine heeds_ite.mpr ⟨fun _ => ?_, fun _ => (quiet_ignoreCallback _ _ _).heeds⟩
    refine (heeds_tryCatch _ _).mpr ((heeds_applyCallback ((agrees.trans later).free free) equipment
      envelope).imp (fun _ _ _ => trivial) fun fault last _ => ?_)
    have release : Quiet mayAnswer known (Job.store (.releaseCallback key)) :=
      quiet_store _ (fun _ => trivial) fun _ => rfl
    refine (heeds_bind _ _).mpr ((heeds_tryCatch _ _).mpr (release.heeds.imp ?_ ?_))
    · exact fun _ _ _ => trivial
    · exact fun _ _ _ => trivial

end Operations

end Vetting.Execution
