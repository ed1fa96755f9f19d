import Vetting.Proofs.Run.Roles

/-!
Contract: a step is begun only after asking whether the run is to be cancelled.

Owns:
- `Permit`: what the last poll of an execution still permits, and `polling`, the discipline of one
  that acquires a step run once after each poll that has told it to go on;
- how many steps a permit still lets begin;
- that executions keep this discipline, whatever they are answered.

Does not own: who writes the wish, and when (`Vetting.Proofs.Run.Winding`).

Carrying a step out neither polls nor begins anything, so an execution has the same permit
after it as before.
-/

namespace Vetting.Execution

/-! ### Permits -/

/-- The one who asks is told that nobody has asked to cancel the run. -/
def Request.Admits (runId : Uuid) : (request : Request) → request.Answer → Prop
  | .store (.cancelFlag id), .ok false => id = runId
  | _, _ => False

/-- What an execution has been permitted by its last poll, and has made of it since. -/
inductive Permit where
  /-- It has not asked yet, or has not been told to go on. -/
  | barred
  | admitted
  /-- It has found a step run that was there. -/
  | found
  | working
deriving DecidableEq

namespace Permit

/-- What may be asked for with a permit. -/
def May (runId : Uuid) (permit : Permit) (request : Request) : Prop :=
  match request.role with
  | .poll id => id = runId
  | .acquisition => permit = .admitted
  | .restart => permit = .found
  | .work => permit ≠ .barred
  | .aside => True

/-- The permit after an answer. -/
def noting (permit : Permit) : (request : Request) → request.Answer → Permit
  | .store (.cancelFlag _), .ok false => .admitted
  | .store (.cancelFlag _), _ => .barred
  | .store (.acquire _ _ _), .ok (.existing _) => .found
  | .store (.acquire _ _ _), _ => .working
  | .store (.restart _ _ _), _ => .working
  | _, _ => permit

theorem noting_of_role (permit : Permit) {request : Request}
    (steady : request.role = .aside ∨ request.role = .work) (answer : request.Answer) :
    permit.noting request answer = permit := by
  cases request with
  | store request => cases request <;> first | rfl | simp [Request.role] at steady
  | _ => rfl

end Permit

/-! ### What a request makes of a permit -/

/-- How many more acquisitions or restarts there may be while no poll lets the execution go on. -/
def Permit.credit : Role → Permit → Nat
  | .acquisition, .admitted | .restart, .admitted | .restart, .found => 1
  | _, _ => 0

theorem Permit.credit_le_one (role : Role) (permit : Permit) : permit.credit role ≤ 1 := by
  cases permit <;> cases role <;> simp [Permit.credit]

section Requests

variable {runId : Uuid} {permit : Permit} {role : Role} {request : Request}
  {answer : request.Answer}

/-- A poll that does not let go on bars. -/
theorem Permit.noting_poll (polls : request.role = .poll runId)
    (refused : ¬ request.Admits runId answer) : permit.noting request answer = .barred := by
  cases request with
  | store request =>
    cases request with
    | cancelFlag id =>
      obtain rfl : id = runId := Role.poll.inj polls
      cases answer with
      | error fault => rfl
      | ok canceled =>
        cases canceled with
        | true => rfl
        | false => exact absurd rfl refused
    | _ => cases polls
  | _ => cases polls

theorem Permit.noting_acquisition (permit : Permit) (acquires : request.role = .acquisition)
    (answer : request.Answer) :
    permit.noting request answer = .found ∨ permit.noting request answer = .working := by
  cases request with
  | store request =>
    cases request with
    | acquire id step now =>
      cases answer with
      | error fault => exact .inr rfl
      | ok acquisition =>
        cases acquisition with
        | created stepRun => exact .inr rfl
        | existing stepRun => exact .inl rfl
    | _ => cases acquires
  | _ => cases acquires

theorem Permit.noting_restart (permit : Permit) (restarts : request.role = .restart)
    (answer : request.Answer) : permit.noting request answer = .working := by
  cases request with
  | store request => cases request <;> first | rfl | cases restarts
  | _ => cases restarts

/-- Who has not been let go on does nothing of a step, and is not let go on by that. -/
theorem Permit.May.barred (may : Permit.May runId .barred request)
    (refused : ¬ request.Admits runId answer) :
    Permit.noting .barred request answer = .barred ∧ request.role.isWork = false := by
  unfold Permit.May at may
  cases isRole : request.role with
  | poll id =>
    simp only [isRole] at may
    subst may
    exact ⟨Permit.noting_poll isRole refused, rfl⟩
  | acquisition | restart => simp [isRole] at may
  | work => simp [isRole] at may
  | aside => exact ⟨Permit.noting_of_role _ (.inl isRole) answer, rfl⟩

/-- Beginning a step uses up what the last poll has allowed. -/
theorem Permit.May.credit (may : permit.May runId request)
    (refused : ¬ request.Admits runId answer) (begins : role = .acquisition ∨ role = .restart) :
    (permit.noting request answer).credit role + (if request.role = role then 1 else 0) ≤
      permit.credit role := by
  unfold Permit.May at may
  cases isRole : request.role with
  | poll id =>
    simp only [isRole] at may
    subst may
    rw [Permit.noting_poll isRole refused]
    rcases begins with rfl | rfl <;> simp [Permit.credit]
  | acquisition =>
    simp only [isRole] at may
    subst may
    obtain later | later := Permit.noting_acquisition .admitted isRole answer <;> rw [later] <;>
      rcases begins with rfl | rfl <;> simp [Permit.credit]
  | restart =>
    simp only [isRole] at may
    subst may
    rw [Permit.noting_restart .found isRole]
    rcases begins with rfl | rfl <;> simp [Permit.credit]
  | work | aside =>
    rw [Permit.noting_of_role _ (by simp [isRole]) answer]
    rcases begins with rfl | rfl <;> simp

/-- Beginning a step has to be allowed. -/
theorem Permit.May.credit_pos (may : permit.May runId request)
    (begins : request.role = .acquisition ∨ request.role = .restart) :
    0 < permit.credit request.role := by
  unfold Permit.May at may
  rcases begins with isRole | isRole <;> simp only [isRole] at may ⊢ <;> subst may <;> decide

end Requests

/-! ### The discipline -/

/-- A run that is answered has the identifier by which it has been asked for. -/
def Request.Names : (request : Request) → request.Answer → Prop
  | .store (.run id), .ok run => run.id = id
  | _, _ => True

/-- Acquiring a step run once after each poll that has told to go on, and restarting only the one
that has been found then. -/
def polling (runId : Uuid) : Discipline Permit where
  may := Permit.May runId
  learns permit request answer after :=
    request.Names answer ∧ after = permit.noting request answer

/-! ### Jobs that neither poll nor begin anything -/

/-- An execution that does the job with a permit has the same permit afterwards. -/
def Steady {ε α : Type} (runId : Uuid) (permit : Permit) (job : ExceptT ε Program α) : Prop :=
  Preserves (polling runId) (fun after => after = permit) job

section Steady

variable {runId : Uuid} {permit : Permit}

/-- Who does nothing of a step keeps the permit. -/
theorem Plain.steady {ε α : Type} {job : ExceptT ε Program α} (plain : Plain job) :
    Steady runId permit job := by
  refine plain.preserves (fun _ request _ isPlain => ?_) ?_
  · show Permit.May runId _ _
    simp only [Permit.May, isPlain.aside]
  · rintro _ request answer after rfl isPlain ⟨_, rfl⟩
    exact Permit.noting_of_role _ (.inl isPlain.aside) answer

theorem steady_log (id : Uuid) (kind : EventKind) : Steady runId permit (Job.log id kind) := by
  rintro _ rfl
  exact ⟨trivial, fun _ _ learns => learns.2⟩

section Working

variable (unbarred : permit ≠ .barred)
include unbarred

theorem steady_work {request : StoreRequest} (work : (Request.store request).role = .work) :
    Steady runId permit (Job.store request) := by
  rintro permit rfl
  refine (heeds_store request).mpr ⟨?_, ?_⟩
  · show Permit.May runId _ _
    simpa only [Permit.May, work] using unbarred
  · rintro answer after ⟨_, rfl⟩
    have same := permit.noting_of_role (.inr work) answer
    cases answer <;> exact same

theorem steady_record (id stepRunId : Uuid) (issues : List Issue) (mode : RecordMode) :
    Steady runId permit (record id stepRunId issues mode) := by
  refine plain_stamp.steady.bind fun stamp => ?_
  cases mode with
  | replace => exact (steady_work unbarred rfl).bind fun _ => preserves_pure _
  | append => exact (steady_work unbarred rfl).bind fun _ => preserves_pure _

theorem steady_endStep (stepRun : StepRun) (status : StepStatus) (output : StepOutput)
    (error : Option String) : Steady runId permit (endStep stepRun status output error) := by
  refine plain_now.steady.bind fun now => .ite (preserves_throw _) ?_
  refine (steady_work unbarred rfl).bind fun _ => (steady_log _ _).bind fun _ => ?_
  exact preserves_pure _

theorem steady_storeInterim (stepRun : StepRun) (output : StepOutput) :
    Steady runId permit (storeInterim stepRun output) :=
  (steady_work unbarred rfl).bind fun _ => preserves_pure _

theorem steady_failWithIssue (stepRun : StepRun) (issue : Issue) (output : StepOutput) :
    Steady runId permit (failWithIssue stepRun issue output) := by
  refine (steady_record unbarred _ _ _ _).bind fun _ => ?_
  refine (plain_countFindings _).steady.bind fun _ => ?_
  exact (steady_endStep unbarred _ _ _ _).bind fun _ => preserves_pure _

theorem steady_failCurrent (id : Uuid) (code detail : String) :
    Steady runId permit (failCurrent id code detail) := by
  refine (steady_work unbarred rfl).bind fun current => .ite (preserves_pure _) ?_
  exact steady_failWithIssue unbarred _ _ _

theorem steady_failStep (stepRun : StepRun) (fault : EngineFault) :
    Steady runId permit (failStep stepRun fault) := by
  refine (steady_work unbarred rfl).bind fun latest => .ite ?_ (preserves_pure _)
  exact (steady_failWithIssue unbarred _ _ _).bind fun _ => preserves_pure _

variable (equipment : Equipment) (context : StepContext)

theorem steady_processInline : Steady runId permit (processInline equipment context) := by
  refine (preserves_given _).bind fun found => (preserves_given _).bind fun resolved => ?_
  cases resolved with
  | external => exact preserves_throw _
  | inline =>
    have validates : Steady runId permit (Job.validate found.1 context.submission) := by
      rintro _ rfl
      refine (heeds_validate _ _).mpr ⟨unbarred, ?_⟩
      rintro answer after ⟨_, rfl⟩
      cases answer <;> rfl
    refine validates.bind fun outcome => (steady_record unbarred _ _ _ _).bind fun recorded => ?_
    exact (steady_endStep unbarred _ _ _ _).bind fun _ => preserves_pure _

theorem steady_processAction : Steady runId permit (processAction equipment context) := by
  refine (preserves_given _).bind fun found => (preserves_given _).bind fun _ => ?_
  have acts : ∀ given, Steady runId permit (Job.act found.1 given) := by
    rintro given _ rfl
    refine (heeds_act _ _).mpr ⟨unbarred, ?_⟩
    rintro answer after ⟨_, rfl⟩
    cases answer <;> rfl
  refine (acts _).bind fun outcome => (steady_record unbarred _ _ _ _).bind fun recorded => ?_
  exact (steady_endStep unbarred _ _ _ _).bind fun _ => preserves_pure _

theorem steady_completeWith (run : Run) (step : Step) (stepRun : StepRun) (base : StepOutput)
    (envelope : Envelope) (external : ExternalValidator) (signals : Scope.Signals) :
    Steady runId permit
      (completeWith equipment run step stepRun base envelope external signals) := by
  refine (preserves_given _).bind fun found => (steady_record unbarred _ _ _ _).bind fun _ => ?_
  refine (plain_countFindings _).steady.bind fun _ => ?_
  exact (steady_endStep unbarred _ _ _ _).bind fun _ => preserves_pure _

theorem steady_processExternal : Steady runId permit (processExternal equipment context) := by
  refine (preserves_given _).bind fun found => (preserves_given _).bind fun external => ?_
  have looks : Steady runId permit Job.backendAvailable := by
    rintro _ rfl
    exact ⟨unbarred, fun _ _ learns => learns.2⟩
  have launches : ∀ job, Steady runId permit (Job.launch job) := by
    rintro job _ rfl
    refine (heeds_launch _).mpr ⟨unbarred, ?_⟩
    rintro answer after ⟨_, rfl⟩
    cases answer <;> rfl
  refine looks.bind fun available => .ite (preserves_throw _) ?_
  refine (steady_record unbarred _ _ _ _).bind fun recorded => ?_
  refine (steady_storeInterim unbarred _ _).bind fun stepRun => (launches _).bind fun response => ?_
  refine .ite ?_ ?_
  · refine (steady_storeInterim unbarred _ _).bind fun _ => (steady_log _ _).bind fun _ => ?_
    exact preserves_pure _
  · cases response.envelope? with
    | some envelope => exact steady_completeWith unbarred _ _ _ _ _ _ _ _
    | none =>
      refine (steady_storeInterim unbarred _ _).bind fun _ => ?_
      exact steady_failWithIssue unbarred _ _ _

theorem steady_dispatch : Steady runId permit (dispatch equipment context) := by
  refine Preserves.tryCatch ((preserves_given _).bind fun processor => ?_) fun fault => ?_
  · cases processor with
    | inline => exact steady_processInline unbarred equipment context
    | external => exact steady_processExternal unbarred equipment context
    | action => exact steady_processAction unbarred equipment context
  · split
    · exact steady_failCurrent unbarred _ _ _
    · exact steady_failCurrent unbarred _ _ _
    · exact preserves_throw _

end Working

end Steady

/-! ### Executions -/

/-- Only the step at work is left to fail when an execution is interrupted. -/
def Permit.Spares (interruption : Interruption) (permit : Permit) : Prop :=
  interruption.current = none ∨ permit = .working

section Executions

variable {run : Run} {permit : Permit} (equipment : Equipment)

/-- A step that is to be carried out has been begun. -/
theorem polling_beginStep (step : Step) :
    Heeds (polling run.id) (beginStep run.id step) .admitted
      (fun handle after => handle.execute = true → after = .working) fun _ _ => True := by
  refine (heeds_bind _ _).mpr ((plain_now.steady _ rfl).imp (fun now middle same => ?_)
    fun _ _ _ => trivial)
  subst same
  refine (heeds_bind _ _).mpr ((heeds_store _).mpr ⟨rfl, ?_⟩)
  rintro answer after ⟨_, rfl⟩
  cases answer with
  | error fault => trivial
  | ok acquisition =>
    cases acquisition with
    | created stepRun =>
      refine (heeds_bind _ _).mpr ((steady_log _ _ _ rfl).imp (fun _ _ same _ => same)
        fun _ _ _ => trivial)
    | existing stepRun =>
      refine heeds_ite.mpr ⟨by rintro _ ⟨⟩, fun _ => ?_⟩
      refine (heeds_bind _ _).mpr ((heeds_store _).mpr ⟨rfl, ?_⟩)
      rintro answer after ⟨_, rfl⟩
      cases answer with
      | error fault => trivial
      | ok restarted? =>
        cases restarted? with
        | some restarted =>
          exact (heeds_bind _ _).mpr ((steady_log _ _ _ rfl).imp (fun _ _ same _ => same)
            fun _ _ _ => trivial)
        | none =>
          have reads : Steady run.id .working (Job.store (.stepRun stepRun.id)) :=
            steady_work (by decide) rfl
          exact (heeds_bind _ _).mpr ((reads _ rfl).imp (fun _ _ _ no => nomatch no)
            fun _ _ _ => trivial)

theorem polling_takeStep (submission : Submission) (step : Step) :
    Heeds (polling run.id) (takeStep equipment run submission step) .admitted
      (fun _ _ => True) Permit.Spares := by
  refine (heeds_bind _ _).mpr ((heeds_during _ _).mpr ((polling_beginStep step).imp
    (fun handle after begun => ?_) fun _ _ _ => .inl rfl))
  refine heeds_ite.mpr ⟨fun executes => ?_, fun _ => trivial⟩
  obtain rfl := begun executes
  have carries : Steady run.id .working do
      let signals ← collectSignals run.id step.order
      return progressAfter
        (← dispatch equipment ⟨run, step, handle.stepRun, submission, signals⟩) :=
    (plain_collectSignals _ _).steady.bind fun _ =>
      (steady_dispatch (by decide) equipment _).bind fun _ => preserves_pure _
  exact (heeds_during _ _).mpr ((carries _ rfl).imp (fun _ _ _ => trivial) fun _ _ => .inr)

/-- Every step is taken after a poll of its own. -/
theorem polling_takeSteps (submission : Submission) (steps : List Step) :
    Heeds (polling run.id) (takeSteps equipment run submission steps) permit
      (fun _ _ => True) Permit.Spares := by
  induction steps generalizing permit with
  | nil => trivial
  | cons step rest inductionHypothesis =>
    refine (heeds_bind _ _).mpr ((heeds_during _ _).mpr ((heeds_store _).mpr ⟨rfl, ?_⟩))
    rintro answer after ⟨_, rfl⟩
    cases answer with
    | error fault => exact .inl rfl
    | ok canceled =>
      cases canceled with
      | true => trivial
      | false =>
        refine (heeds_bind _ _).mpr ((polling_takeStep equipment submission step).imp
          (fun progress? after _ => ?_) fun _ _ => id)
        cases progress? with
        | some progress => trivial
        | none => exact inductionHypothesis

theorem polling_drive (start : Int) :
    Heeds (polling run.id) (drive equipment run start) permit (fun _ _ => True) Permit.Spares := by
  have reads : Plain (Job.store (.submission run.submissionId)) := plain_store rfl
  refine (heeds_bind _ _).mpr ((heeds_during _ _).mpr ((reads.steady _ rfl).imp
    (fun submission after _ => ?_) fun _ _ _ => .inl rfl))
  exact polling_takeSteps equipment submission _

theorem polling_failRun {runId : Uuid} {interruption : Interruption}
    (spares : permit.Spares interruption) :
    Heeds (polling runId) (failRun runId interruption) permit (fun _ _ => True)
      fun _ _ => True := by
  have closes : ∀ after : Permit, Heeds (polling runId)
      (closeRun runId .failed (some genericFailure)) after (fun _ _ => True) fun _ _ => True :=
    fun _ => ((plain_closeRun _ _ _).steady _ rfl).imp (fun _ _ _ => trivial) fun _ _ _ => trivial
  rw [failRun]
  cases isCurrent : interruption.current with
  | none => exact closes permit
  | some stepRun =>
    rcases spares with absent | rfl
    · rw [isCurrent] at absent
      cases absent
    · have fails : Steady runId .working (failStep stepRun interruption.fault) :=
        steady_failStep (by decide) _ _
      refine (heeds_bind _ _).mpr ((heeds_tryCatch _ _).mpr ((fails _ rfl).imp ?_ ?_))
      · exact fun _ after _ => closes after
      · exact fun _ after _ => closes after

/-- An execution polls before each step that it takes. -/
theorem polling_execute (runId : Uuid) (resumeFrom : Option Int) :
    Heeds (polling runId) (execute equipment runId resumeFrom) permit (fun _ _ => True)
      fun _ _ => True := by
  refine (heeds_bind _ _).mpr (((plain_enterRun _ _).steady _ rfl).imp (fun entered _ _ => ?_)
    fun _ _ _ => trivial)
  cases entered with
  | some outcome => trivial
  | none =>
    refine (heeds_bind _ _).mpr ((heeds_store _).mpr ⟨trivial, ?_⟩)
    rintro answer middle ⟨named, rfl⟩
    cases answer with
    | error fault => trivial
    | ok run =>
      have named : run.id = runId := named
      have drives : Heeds (polling run.id) (drive equipment run (resumeFrom.getD leastOrder)) middle
          (fun _ _ => True) Permit.Spares := polling_drive equipment _
      rw [named] at drives
      refine (heeds_bind _ _).mpr ((heeds_lift _).mpr (program_heeds_run.mpr
        (drives.imp (fun progress after _ => ?_)
          fun interruption after spares => polling_failRun spares)))
      cases progress with
      | completed | failed | canceled =>
        exact ((plain_closeRun _ _ _).steady _ rfl).imp (fun _ _ _ => trivial) fun _ _ _ => trivial
      | pending | yielded =>
        exact ((plain_currentOutcome _).steady _ rfl).imp (fun _ _ _ => trivial)
          fun _ _ _ => trivial

end Executions

end Vetting.Execution
