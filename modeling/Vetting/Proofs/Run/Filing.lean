import Vetting.Proofs.Run.Invocation
import Vetting.Proofs.Run.Roles

/-!
Contract: step runs and findings are filed where they belong, and a beginning is told by whoever has
made it.

Owns:
- `StepRun.entry`: what a step run keeps from its beginning on;
- registers: the entries that a program has been told, and the beginning that it has to tell of;
- `filing`, the discipline of a program that writes a step run only under its entry, findings
  only for a step run that it has been told of and for its run, and the beginning of a step only
  if it has made it;
- that every invocation keeps this discipline.

Does not own: what the tables of a store look like because of it (`Vetting.Proofs.Run.Files`).
-/

namespace Vetting

/-- The run and the step of a step run, with the order of the step. -/
def StepRun.entry (stepRun : StepRun) : Uuid × String × Int :=
  (stepRun.runId, stepRun.stepKey, stepRun.stepOrder)

namespace Execution

/-- The run and the step that have been begun by an answer. -/
def Request.begins? : (request : Request) → request.Answer → Option (Uuid × String)
  | .store (.acquire runId step _), .ok (.created _) => some (runId, step.key)
  | _, _ => none

/-- What a program has been told of step runs, and of which beginning it has to tell. -/
structure Register where
  entries : Uuid → Option (Uuid × String × Int)
  owed? : Option (Uuid × String)

namespace Register

def blank : Register := ⟨fun _ => none, none⟩

/-- The register after an answer. -/
def noting (register : Register) (request : Request) (answer : request.Answer) : Register where
  entries := match request.notice? answer with
    | some notice =>
      Function.update register.entries notice.stepRun.id (some notice.stepRun.entry)
    | none => register.entries
  owed? := match request.begins? answer with
    | some beginning => some beginning
    | none => if request.begun?.isSome then none else register.owed?

/-- What a program that files everything where it belongs asks for. -/
def May (register : Register) : Request → Prop
  | .store (.updateStepRun stepRun) => register.entries stepRun.id = some stepRun.entry
  | .store (.replaceFindings id findings) | .store (.appendFindings id findings) =>
    ∃ entry, register.entries id = some entry ∧
      ∀ finding ∈ findings, finding.stepRunId = id ∧ finding.runId = entry.1
  | .log runId kind => ∀ key, kind.begun? = some key → register.owed? = some (runId, key)
  | _ => True

/-- What a program may rely on: step runs keep their entries, and belong to the run that they have
been acquired for. -/
structure Trusts (register : Register) (request : Request) (answer : request.Answer) : Prop where
  kept : ∀ notice, request.notice? answer = some notice →
    ∀ entry, register.entries notice.stepRun.id = some entry → notice.stepRun.entry = entry
  ofRun : ∀ runId step now, request = .store (.acquire runId step now) →
    ∀ notice, request.notice? answer = some notice → notice.stepRun.runId = runId

/-- The entry of a step run is known. -/
def Has (stepRun : StepRun) (register : Register) : Prop :=
  register.entries stepRun.id = some stepRun.entry

end Register

section Discipline

variable (mayAnswer : (request : Request) → request.Answer → Prop) (known : Uuid → Prop)

/-- Filing step runs, findings and beginnings where they belong. -/
def filing : Discipline Register where
  may := Register.May
  learns register request answer after :=
    Credible mayAnswer known request answer ∧ register.Trusts request answer ∧
      after = register.noting request answer

end Discipline

section Filing

variable {mayAnswer : (request : Request) → request.Answer → Prop} {known : Uuid → Prop}
  {register : Register} {kept : Register → Prop} {stepRun : StepRun}

/-! ### What every answer keeps -/

/-- It holds of a register after every answer if it has held before. -/
def Lasting (kept : Register → Prop) : Prop :=
  ∀ register request answer, kept register → register.Trusts request answer →
    kept (register.noting request answer)

theorem lasting_true : Lasting fun _ => True := fun _ _ _ _ _ => trivial

theorem lasting_has (stepRun : StepRun) : Lasting (Register.Has stepRun) := by
  intro register request answer has trusts
  unfold Register.Has Register.noting
  cases told : request.notice? answer with
  | none => exact has
  | some notice =>
    by_cases same : stepRun.id = notice.stepRun.id
    · have sameEntry := trusts.kept notice told stepRun.entry (same ▸ has)
      simp [same, sameEntry]
    · simp only [Function.update_of_ne same]
      exact has

/-- What has just been told is known. -/
theorem Register.has_noting (register : Register) {request : Request} {answer : request.Answer}
    {notice : Notice} (told : request.notice? answer = some notice) :
    (register.noting request answer).Has notice.stepRun := by
  simp [Register.Has, Register.noting, told]

theorem files_store (request : StoreRequest) (lasting : Lasting kept)
    (may : ∀ register, kept register → Register.May register (.store request)) :
    Preserves (filing mayAnswer known) kept (Job.store request) := by
  intro register holds
  refine (heeds_store request).mpr ⟨may register holds, ?_⟩
  rintro answer after ⟨_, trusts, rfl⟩
  have still := lasting register _ answer holds trusts
  cases answer <;> exact still

theorem files_log (lasting : Lasting kept) {runId : Uuid} {kind : EventKind}
    (silent : kind.begun? = none) :
    Preserves (filing mayAnswer known) kept (Job.log runId kind) := by
  intro register holds
  refine (heeds_log runId kind).mpr ⟨fun key tells => ?_, ?_⟩
  · rw [silent] at tells
    cases tells
  · rintro answer after ⟨_, trusts, rfl⟩
    exact lasting register _ answer holds trusts

/-- Who asks for nothing of a step files nothing. -/
theorem Plain.files {ε α : Type} {job : ExceptT ε Program α} (plain : Plain job)
    (lasting : Lasting kept) : Preserves (filing mayAnswer known) kept job := by
  refine plain.preserves (fun register request _ isPlain => ?_) ?_
  · show register.May request
    obtain ⟨aside, silent⟩ := isPlain
    cases request with
    | store request => cases request <;> first | exact trivial | cases aside
    | log runId kind =>
      intro key tells
      simp [Request.begun?, tells] at silent
    | _ => trivial
  · rintro register request answer _ holds _ ⟨_, trusts, rfl⟩
    exact lasting register request answer holds trusts

/-- After what keeps something, nothing need hold any more. -/
theorem Preserves.weaken {σ ε α : Type} {discipline : Discipline σ} {held : σ → Prop}
    {job : ExceptT ε Program α} (preserves : Preserves discipline held job) {state : σ}
    (holds : held state) :
    Heeds discipline job state (fun _ _ => True) fun _ _ => True :=
  (preserves state holds).imp (fun _ _ _ => trivial) fun _ _ _ => trivial

/-! ### Writing a step run and its findings -/

theorem mem_findingsOf {runId stepRunId : Uuid} {stamp : Stamp} {issues : List Issue}
    {finding : Finding} (member : finding ∈ findingsOf runId stepRunId stamp issues) :
    finding.stepRunId = stepRunId ∧ finding.runId = runId := by
  obtain ⟨index, inside, rfl⟩ := List.mem_mapIdx.mp member
  exact ⟨rfl, rfl⟩

theorem files_record {runId : Uuid} (ofRun : stepRun.runId = runId) (issues : List Issue)
    (mode : RecordMode) :
    Preserves (filing mayAnswer known) (Register.Has stepRun)
      (record runId stepRun.id issues mode) := by
  have lasting := lasting_has stepRun
  refine (plain_stamp.files lasting).bind fun stamp => ?_
  have may : ∀ register : Register, register.Has stepRun → ∃ entry,
      register.entries stepRun.id = some entry ∧
        ∀ finding ∈ findingsOf runId stepRun.id stamp issues,
          finding.stepRunId = stepRun.id ∧ finding.runId = entry.1 :=
    fun register has => ⟨stepRun.entry, has, fun finding member =>
      (mem_findingsOf member).imp_right fun same => same.trans ofRun.symm⟩
  cases mode with
  | replace =>
    exact (files_store (.replaceFindings _ _) lasting may).bind fun _ => preserves_pure _
  | append =>
    exact (files_store (.appendFindings _ _) lasting may).bind fun _ => preserves_pure _

theorem files_endStep (status : StepStatus) (output : StepOutput) (error : Option String) :
    Preserves (filing mayAnswer known) (Register.Has stepRun)
      (endStep stepRun status output error) := by
  have lasting := lasting_has stepRun
  refine (plain_now.files lasting).bind fun now => .ite (preserves_throw _) ?_
  let ended := stepRun.ended status output error now
  refine (files_store (.updateStepRun ended) lasting fun _ has => has).bind fun _ => ?_
  exact (files_log lasting rfl).bind fun _ => preserves_pure _

/-- What is stored in between has the entry of the step run that was there before. -/
theorem files_storeInterim {α : Type} (output : StepOutput) {next : StepRun → Job α}
    (goesOn : Preserves (filing mayAnswer known) (Register.Has stepRun)
      (next (stepRun.leaving output))) :
    Preserves (filing mayAnswer known) (Register.Has stepRun)
      (storeInterim stepRun output >>= next) := by
  rw [storeInterim, bind_assoc]
  refine (files_store (.updateStepRun (stepRun.leaving output)) (lasting_has stepRun)
    fun _ has => has).bind fun _ => ?_
  rw [pure_bind]
  exact goesOn

theorem files_failWithIssue (issue : Issue) (output : StepOutput) :
    Preserves (filing mayAnswer known) (Register.Has stepRun)
      (failWithIssue stepRun issue output) := by
  refine (files_record rfl _ _).bind fun _ => ?_
  refine ((plain_countFindings _).files (lasting_has stepRun)).bind fun _ => ?_
  exact (files_endStep _ _ _).bind fun _ => preserves_pure _

/-- A step run that has been read is known. -/
theorem files_stepRun (id : Uuid) :
    Heeds (filing mayAnswer known) (Job.store (.stepRun id)) register
      (fun stepRun after => stepRun.id = id ∧ after.Has stepRun) fun _ _ => True := by
  refine (heeds_store _).mpr ⟨trivial, ?_⟩
  rintro answer after ⟨credible, _, rfl⟩
  cases answer with
  | error fault => trivial
  | ok stepRun =>
    have has : (register.noting (.store (.stepRun id)) (.ok stepRun)).Has
        (Notice.read stepRun).stepRun := register.has_noting rfl
    exact ⟨credible, has⟩

theorem files_failCurrent (id : Uuid) (code detail : String) :
    Preserves (filing mayAnswer known) (fun _ => True) (failCurrent id code detail) := by
  intro register _
  refine (heeds_bind _ _).mpr ((files_stepRun id).imp (fun current after read => ?_)
    fun _ _ _ => trivial)
  exact heeds_ite.mpr ⟨fun _ => trivial, fun _ => (files_failWithIssue _ _).weaken read.2⟩

theorem files_failStep (stepRun : StepRun) (fault : EngineFault) :
    Preserves (filing mayAnswer known) (fun _ => True) (failStep stepRun fault) := by
  intro register _
  refine (heeds_bind _ _).mpr ((files_stepRun stepRun.id).imp (fun latest after read => ?_)
    fun _ _ _ => trivial)
  refine heeds_ite.mpr ⟨fun _ => ?_, fun _ => trivial⟩
  exact ((files_failWithIssue _ _).bind fun _ => preserves_pure _).weaken read.2

theorem files_contain {job : Job StepResult} (id : Uuid)
    (files : Heeds (filing mayAnswer known) job register (fun _ _ => True) fun _ _ => True) :
    Heeds (filing mayAnswer known) (contain id job) register (fun _ _ => True)
      fun _ _ => True := by
  refine (heeds_tryCatch _ _).mpr (files.imp (fun _ _ _ => trivial) fun fault after _ => ?_)
  split
  · exact files_failCurrent _ _ _ after trivial
  · exact files_failCurrent _ _ _ after trivial
  · trivial

/-! ### Carrying a step out -/

section Processing

variable (equipment : Equipment)

theorem files_completeWith (stepRun : StepRun) {run : Run} (ofRun : stepRun.runId = run.id)
    (step : Step)
    (base : StepOutput) (envelope : Envelope) (external : ExternalValidator)
    (signals : Scope.Signals) :
    Preserves (filing mayAnswer known) (Register.Has stepRun)
      (completeWith equipment run step stepRun base envelope external signals) := by
  refine (preserves_given _).bind fun found => (files_record ofRun _ _).bind fun _ => ?_
  refine ((plain_countFindings _).files (lasting_has stepRun)).bind fun _ => ?_
  exact (files_endStep _ _ _).bind fun _ => preserves_pure _

variable {context : StepContext} (ofRun : context.stepRun.runId = context.run.id)
include ofRun

theorem files_processInline :
    Preserves (filing mayAnswer known) (Register.Has context.stepRun)
      (processInline equipment context) := by
  refine (preserves_given _).bind fun found => (preserves_given _).bind fun resolved => ?_
  cases resolved with
  | external => exact preserves_throw _
  | inline =>
    have validates : Preserves (filing mayAnswer known) (Register.Has context.stepRun)
        (Job.validate found.1 context.submission) := by
      intro register has
      refine (heeds_validate _ _).mpr ⟨trivial, ?_⟩
      rintro answer after ⟨_, trusts, rfl⟩
      cases answer <;> exact lasting_has _ _ _ _ has trusts
    refine validates.bind fun outcome => (files_record ofRun _ _).bind fun recorded => ?_
    exact (files_endStep _ _ _).bind fun _ => preserves_pure _

theorem files_processAction :
    Preserves (filing mayAnswer known) (Register.Has context.stepRun)
      (processAction equipment context) := by
  refine (preserves_given _).bind fun found => (preserves_given _).bind fun _ => ?_
  have acts : ∀ given, Preserves (filing mayAnswer known) (Register.Has context.stepRun)
      (Job.act found.1 given) := by
    intro given register has
    refine (heeds_act _ _).mpr ⟨trivial, ?_⟩
    rintro answer after ⟨_, trusts, rfl⟩
    cases answer <;> exact lasting_has _ _ _ _ has trusts
  refine (acts _).bind fun outcome => (files_record ofRun _ _).bind fun recorded => ?_
  exact (files_endStep _ _ _).bind fun _ => preserves_pure _

theorem files_afterLaunch (external : ExternalValidator) (interim : StepOutput)
    (response : JobResponse) :
    Preserves (filing mayAnswer known) (Register.Has context.stepRun)
      (afterLaunch equipment context external (context.stepRun.leaving interim) interim
        response) := by
  refine .ite (files_storeInterim _ ?_) ?_
  · exact (files_log (lasting_has _) rfl).bind fun _ => preserves_pure _
  · cases response.envelope? with
    | some envelope =>
      exact files_completeWith equipment (context.stepRun.leaving interim) ofRun _ _ _ _ _
    | none => exact files_storeInterim _ (files_failWithIssue _ _)

theorem files_processExternal :
    Preserves (filing mayAnswer known) (Register.Has context.stepRun)
      (processExternal equipment context) := by
  have lasting := lasting_has context.stepRun
  have looks : Preserves (filing mayAnswer known) (Register.Has context.stepRun)
      Job.backendAvailable := by
    intro register has
    refine heeds_backendAvailable.mpr ⟨trivial, ?_⟩
    rintro answer after ⟨_, trusts, rfl⟩
    exact lasting _ _ _ has trusts
  have launches : ∀ job, Preserves (filing mayAnswer known) (Register.Has context.stepRun)
      (Job.launch job) := by
    intro job register has
    refine (heeds_launch _).mpr ⟨trivial, ?_⟩
    rintro answer after ⟨_, trusts, rfl⟩
    cases answer <;> exact lasting _ _ _ has trusts
  refine (preserves_given _).bind fun found => (preserves_given _).bind fun external => ?_
  refine looks.bind fun available => .ite (preserves_throw _) ?_
  refine (files_record ofRun _ _).bind fun recorded => ?_
  refine files_storeInterim _ ((launches _).bind fun response => ?_)
  exact files_afterLaunch equipment ofRun _ _ response

theorem files_dispatch (has : register.Has context.stepRun) :
    Heeds (filing mayAnswer known) (dispatch equipment context) register (fun _ _ => True)
      fun _ _ => True := by
  refine files_contain _ (Preserves.weaken ((preserves_given _).bind fun processor => ?_) has)
  cases processor with
  | inline => exact files_processInline equipment ofRun
  | external => exact files_processExternal equipment ofRun
  | action => exact files_processAction equipment ofRun

end Processing

theorem files_completeContained (equipment : Equipment) (id : Uuid) (envelope : Envelope) :
    Preserves (filing mayAnswer known) (fun _ => True)
      (completeContained equipment id envelope) := by
  intro register _
  refine files_contain _ ((heeds_bind _ _).mpr ((files_stepRun id).imp
    (fun stepRun after read => ?_) fun _ _ _ => trivial))
  refine heeds_ite.mpr ⟨fun _ => trivial, fun _ => ?_⟩
  refine (heeds_bind _ _).mpr ((heeds_store _).mpr ⟨trivial, ?_⟩)
  rintro answer later ⟨credible, trusts, rfl⟩
  have has := lasting_has stepRun _ _ answer read.2 trusts
  cases answer with
  | error fault => trivial
  | ok run =>
    have ofRun : stepRun.runId = run.id := credible.1.symm
    rw [either_ok]
    cases run.stepByKey? stepRun.stepKey with
    | none => trivial
    | some step =>
      refine Preserves.weaken ((preserves_given _).bind fun found => ?_) has
      refine (preserves_given _).bind fun external => ?_
      refine ((plain_collectSignals _ _).files (lasting_has stepRun)).bind fun signals => ?_
      exact files_completeWith equipment stepRun ofRun _ _ _ _ _

/-! ### Taking the steps of a run -/

/-- A step run that is begun again belongs to the run that it has belonged to. -/
theorem files_restart (has : register.Has stepRun) (now : Timestamp) :
    Heeds (filing mayAnswer known) (Job.store (.restart stepRun.id stepRun.attempt now)) register
      (fun restarted? after => ∀ restarted, restarted? = some restarted →
        after.Has restarted ∧ restarted.runId = stepRun.runId) fun _ _ => True := by
  refine (heeds_store _).mpr ⟨trivial, ?_⟩
  rintro answer after ⟨credible, trusts, rfl⟩
  cases answer with
  | error fault => trivial
  | ok restarted? =>
    rintro restarted rfl
    have same : restarted.entry = stepRun.entry := trusts.kept (.begun restarted) rfl stepRun.entry
      ((congrArg _ credible.1).trans has)
    have begun : (register.noting (.store (.restart stepRun.id stepRun.attempt now))
        (.ok (some restarted))).Has (Notice.begun restarted).stepRun := register.has_noting rfl
    exact ⟨begun, congrArg Prod.fst same⟩

/-- Whoever is to carry a step out knows its step run, and has told its beginning. -/
theorem files_beginStep (runId : Uuid) (step : Step) :
    Heeds (filing mayAnswer known) (beginStep runId step) register
      (fun handle after => handle.execute = true →
        after.Has handle.stepRun ∧ handle.stepRun.runId = runId) fun _ _ => True := by
  refine (heeds_bind _ _).mpr ((plain_now.files lasting_true register trivial).imp
    (fun now middle _ => ?_) fun _ _ _ => trivial)
  refine (heeds_bind _ _).mpr ((heeds_store _).mpr ⟨trivial, ?_⟩)
  rintro answer after ⟨_, trusts, rfl⟩
  cases answer with
  | error fault => trivial
  | ok acquisition =>
    cases acquisition with
    | created stepRun =>
      have has : (middle.noting (.store (.acquire runId step now)) (.ok (.created stepRun))).Has
          (Notice.begun stepRun).stepRun := middle.has_noting rfl
      have ofRun := trusts.ofRun runId step now rfl (.begun stepRun) rfl
      refine (heeds_bind _ _).mpr ((heeds_log _ _).mpr ⟨?_, ?_⟩)
      · rintro key ⟨⟩
        rfl
      · rintro _ last ⟨_, tells, rfl⟩ _
        exact ⟨lasting_has stepRun _ _ _ has tells, ofRun⟩
    | existing stepRun =>
      have has : (middle.noting (.store (.acquire runId step now)) (.ok (.existing stepRun))).Has
          (Notice.found stepRun).stepRun := middle.has_noting rfl
      have ofRun := trusts.ofRun runId step now rfl (.found stepRun) rfl
      refine heeds_ite.mpr ⟨by rintro _ ⟨⟩, fun _ => ?_⟩
      refine (heeds_bind _ _).mpr ((files_restart has now).imp (fun restarted? later begun => ?_)
        fun _ _ _ => trivial)
      cases restarted? with
      | some restarted =>
        obtain ⟨has, sameRun⟩ := begun restarted rfl
        exact (heeds_bind _ _).mpr ((files_log (lasting_has restarted) rfl _ has).imp
          (fun _ _ has _ => ⟨has, sameRun.trans ofRun⟩) fun _ _ _ => trivial)
      | none =>
        refine (heeds_bind _ _).mpr ((files_stepRun stepRun.id).imp (fun _ _ _ no => ?_)
          fun _ _ _ => trivial)
        cases no

theorem files_takeStep {run : Run} (equipment : Equipment) (submission : Submission) (step : Step) :
    Preserves (filing mayAnswer known) (fun _ => True)
      (takeStep equipment run submission step) := by
  intro register _
  refine (heeds_bind _ _).mpr ((heeds_during _ _).mpr ((files_beginStep run.id step).imp
    (fun handle after begun => ?_) fun _ _ _ => trivial))
  refine heeds_ite.mpr ⟨fun executes => ?_, fun _ => trivial⟩
  obtain ⟨has, ofRun⟩ := begun executes
  have collects : Preserves (filing mayAnswer known) (Register.Has handle.stepRun)
      (collectSignals run.id step.order) :=
    (plain_collectSignals run.id step.order).files (lasting_has handle.stepRun)
  refine (heeds_during _ _).mpr ((heeds_bind _ _).mpr ((collects after has).imp
    (fun signals later has => ?_) fun _ _ _ => trivial))
  let context : StepContext := ⟨run, step, handle.stepRun, submission, signals⟩
  have sameRun : context.stepRun.runId = context.run.id := ofRun
  exact (heeds_bind _ _).mpr ((files_dispatch equipment sameRun has).imp (fun _ _ _ => trivial)
    fun _ _ _ => trivial)

theorem files_takeSteps {run : Run} (equipment : Equipment) (submission : Submission)
    (steps : List Step) :
    Preserves (filing mayAnswer known) (fun _ => True)
      (takeSteps equipment run submission steps) := by
  induction steps with
  | nil => exact preserves_pure _
  | cons step rest inductionHypothesis =>
    have polls : Preserves (filing mayAnswer known) (fun _ => True)
        (Job.store (.cancelFlag run.id)) := files_store _ lasting_true fun _ _ => trivial
    refine (polls.during none).bind fun canceled => .ite (preserves_pure _) ?_
    refine (files_takeStep equipment submission step).bind fun progress? => ?_
    cases progress? with
    | some progress => exact preserves_pure _
    | none => exact inductionHypothesis

theorem files_drive {run : Run} (equipment : Equipment) (start : Int) :
    Preserves (filing mayAnswer known) (fun _ => True) (drive equipment run start) := by
  have reads : Plain (Job.store (.submission run.submissionId)) := plain_store rfl
  refine ((reads.files lasting_true).during none).bind fun submission => ?_
  exact files_takeSteps equipment submission _

/-! ### The operations on a run -/

theorem files_failRun (runId : Uuid) (interruption : Interruption) :
    Preserves (filing mayAnswer known) (fun _ => True) (failRun runId interruption) := by
  have closes : Preserves (filing mayAnswer known) (fun _ => True)
      (closeRun runId .failed (some genericFailure)) := (plain_closeRun _ _ _).files lasting_true
  rw [failRun]
  cases interruption.current with
  | none => exact closes
  | some stepRun =>
    exact ((files_failStep stepRun _).tryCatch fun _ => preserves_pure _).bind fun _ => closes

theorem files_execute (equipment : Equipment) (runId : Uuid) (resumeFrom : Option Int) :
    Preserves (filing mayAnswer known) (fun _ => True) (execute equipment runId resumeFrom) := by
  refine ((plain_enterRun _ _).files lasting_true).bind fun entered => ?_
  cases entered with
  | some outcome => exact preserves_pure _
  | none =>
    refine ((plain_run runId).files lasting_true).bind fun run => ?_
    refine (files_drive equipment _).attempt.bind fun progress => ?_
    cases progress with
    | error interruption => exact files_failRun runId interruption
    | ok progress =>
      cases progress with
      | completed | failed | canceled => exact (plain_closeRun _ _ _).files lasting_true
      | pending | yielded => exact (plain_currentOutcome _).files lasting_true

theorem files_recoverCallback (stepRun : StepRun) (fault : EngineFault) :
    Preserves (filing mayAnswer known) (fun _ => True) (recoverCallback stepRun fault) := by
  have reports : Preserves (filing mayAnswer known) (fun _ => True) do
      let latest ← Job.store (.stepRun stepRun.id)
      return (⟨.ofStepRun latest, none, false,
        (← Job.store (.run stepRun.runId)).status⟩ : CallbackOutcome) :=
    (files_store (.stepRun stepRun.id) lasting_true fun _ _ => trivial).bind fun _ =>
      ((plain_run _).files lasting_true).bind fun _ => preserves_pure _
  refine ((plain_run _).files lasting_true).bind fun run => .ite ?_ ?_
  · refine (files_failStep stepRun fault).bind fun _ => ?_
    exact ((plain_storeSummary _).files lasting_true).bind fun _ => reports
  · exact (files_failRun _ _).bind fun _ => reports

theorem files_applyCallback (equipment : Equipment) (stepRun : StepRun) (envelope : Envelope) :
    Preserves (filing mayAnswer known) (fun _ => True)
      (applyCallback equipment stepRun envelope) := by
  refine .ite ((plain_ignoreCallback _ _ _).files lasting_true) ?_
  refine (files_completeContained equipment stepRun.id envelope).attempt.bind fun result => ?_
  cases result with
  | ok result => exact (plain_followCallback _ _).files lasting_true
  | error fault => exact files_recoverCallback stepRun fault

theorem files_completeCallback (equipment : Equipment) (id : Uuid) (envelope : Envelope)
    (key? : Option String) :
    Preserves (filing mayAnswer known) (fun _ => True)
      (completeCallback equipment id envelope key?) := by
  have plainly : ∀ {request : StoreRequest}, (Request.store request).role = .aside →
      Preserves (filing mayAnswer known) (fun _ => True) (Job.store request) :=
    fun aside => (plain_store aside).files lasting_true
  have ignores : ∀ stepRun reason duplicate, Preserves (filing mayAnswer known) (fun _ => True)
      (ignoreCallback stepRun reason duplicate) :=
    fun _ _ _ => (plain_ignoreCallback _ _ _).files lasting_true
  refine (files_store (.stepRun id) lasting_true fun _ _ => trivial).bind fun stepRun => ?_
  cases key? with
  | none => exact files_applyCallback equipment stepRun envelope
  | some key =>
    refine .ite (ignores _ _ _) ((plain_now.files lasting_true).bind fun now => ?_)
    refine (plainly rfl).bind fun isNew => .ite ?_ (ignores _ _ _)
    refine (files_applyCallback equipment stepRun envelope).tryCatch fun fault => ?_
    exact ((plainly rfl).tryCatch fun _ => preserves_pure _).bind fun _ => preserves_throw _

/-- Every invocation files step runs, findings and beginnings where they belong. -/
theorem Invocation.files (invocation : Invocation) (equipment : Equipment) :
    (invocation.program equipment).Heeds (filing mayAnswer known) .blank fun _ _ => True := by
  cases invocation with
  | execute runId resumeFrom =>
    exact (files_execute equipment runId resumeFrom _ trivial).forgetful
  | callback stepRunId envelope key? =>
    exact (files_completeCallback equipment stepRunId envelope key? _ trivial).forgetful
  | cancel runId => exact ((plain_cancel runId).files lasting_true _ trivial).forgetful

end Filing

end Execution

end Vetting
