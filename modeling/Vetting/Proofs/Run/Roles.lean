import Vetting.Proofs.Run.Concerns

/-!
Contract: what requests have to do with steps, and jobs that have nothing to do with them.

Owns:
- `Role`: what a request has to do with beginning a step and carrying it out;
- the steps whose beginning is told;
- `Plain`: jobs that ask for nothing of a step, which keep whatever such requests keep;
- that entering, closing and cancelling a run and reporting on a callback are plain;
- what carrying a step out asks for first.

Does not own: the jobs that begin steps and carry them out.
-/

namespace Vetting

/-- The step whose beginning an event tells. -/
def EventKind.begun? : EventKind → Option String
  | .stepStarted key _ _ => some key
  | _ => none

namespace Execution

/-- What a request has to do with beginning a step and carrying it out. -/
inductive Role where
  /-- It asks whether the run is to be cancelled. -/
  | poll (runId : Uuid)
  | acquisition
  | restart
  /-- The rest of what carrying a step out asks for. -/
  | work
  | aside
deriving DecidableEq

def Role.isWork : Role → Bool
  | .acquisition | .restart | .work => true
  | .poll _ | .aside => false

namespace Request

def role : Request → Role
  | .store (.cancelFlag runId) => .poll runId
  | .store (.acquire _ _ _) => .acquisition
  | .store (.restart _ _ _) => .restart
  | .store (.stepRun _) | .store (.updateStepRun _) | .store (.replaceFindings _ _)
  | .store (.appendFindings _ _) | .validate _ _ | .act _ _ | .backendAvailable | .launch _ => .work
  | _ => .aside

/-- The run and the step whose beginning a request tells. -/
def begun? : Request → Option (Uuid × String)
  | .log runId kind => kind.begun?.map fun key => (runId, key)
  | _ => none

/-- The request has nothing to do with a step. -/
structure IsPlain (request : Request) : Prop where
  aside : request.role = .aside
  silent : request.begun? = none

end Request

/-! ### Plain jobs -/

/-- Whatever is answered, the job asks for nothing of a step. -/
def Plain {ε α : Type} (job : ExceptT ε Program α) : Prop :=
  Preserves (allowing Request.IsPlain) (fun _ => True) job

section Plain

variable {ε α : Type}

/-- A plain job keeps what every plain request keeps. -/
theorem Plain.preserves {σ : Type} {discipline : Discipline σ} {kept : σ → Prop}
    {job : ExceptT ε Program α} (plain : Plain job)
    (may : ∀ state request, kept state → request.IsPlain → discipline.may state request)
    (keeps : ∀ state request answer after, kept state → request.IsPlain →
      discipline.learns state request answer after → kept after) :
    Preserves discipline kept job := by
  intro state holds
  refine Program.Heeds.imp (heeds_of_allowing (plain () trivial) may keeps holds) ?_
  intro result after holds
  cases result <;> exact holds

theorem plain_store {request : StoreRequest} (aside : (Request.store request).role = .aside) :
    Plain (Job.store request) := by
  refine fun _ _ => ⟨⟨aside, rfl⟩, fun answer _ _ => ?_⟩
  cases answer <;> trivial

theorem plain_log {runId : Uuid} {kind : EventKind} (silent : kind.begun? = none) :
    Plain (Job.log runId kind) :=
  fun _ _ => ⟨⟨rfl, by rw [Request.begun?, silent]; rfl⟩, fun _ _ _ => trivial⟩

theorem plain_stamp : Plain Job.stamp := fun _ _ => ⟨⟨rfl, rfl⟩, fun _ _ _ => trivial⟩

theorem plain_now : Plain Job.now := plain_stamp.bind fun _ => preserves_pure _

theorem plain_run (id : Uuid) : Plain (Job.store (.run id)) := plain_store rfl

theorem plain_countFindings (id : Uuid) : Plain (countFindings id) :=
  (plain_store rfl).bind fun _ => preserves_pure _

theorem plain_collectSignals (runId : Uuid) (before : Int) : Plain (collectSignals runId before) :=
  (plain_store rfl).bind fun _ => preserves_pure _

theorem plain_currentOutcome (runId : Uuid) : Plain (currentOutcome runId) :=
  (plain_run runId).bind fun _ => preserves_pure _

theorem plain_storeSummary (runId : Uuid) : Plain (storeSummary runId) := by
  have builds : Plain (buildSummary runId) := by
    refine (plain_run runId).bind fun run => (plain_store rfl).bind fun stepRuns => ?_
    refine (plain_store rfl).bind fun findings => ?_
    exact plain_now.bind fun _ => preserves_pure _
  exact builds.bind fun _ => (plain_store rfl).bind fun _ => preserves_pure _

theorem plain_closeRun (runId : Uuid) (status : RunStatus) (error : Option String) :
    Plain (closeRun runId status error) := by
  refine plain_now.bind fun now => (plain_store rfl).bind fun closed => ?_
  refine .ite ?_ (plain_currentOutcome runId)
  refine (plain_log rfl).bind fun _ => (plain_storeSummary runId).bind fun _ => ?_
  exact plain_currentOutcome runId

theorem plain_enterRun (runId : Uuid) (resumeFrom : Option Int) :
    Plain (enterRun runId resumeFrom) := by
  cases resumeFrom with
  | none =>
    refine plain_now.bind fun now => (plain_store rfl).bind fun started => ?_
    refine (plain_run runId).bind fun run => .ite ?_ ?_
    · exact (plain_log rfl).bind fun _ => preserves_pure _
    · exact (plain_log rfl).bind fun _ => preserves_pure _
  | some order =>
    refine (plain_run runId).bind fun run => .ite ?_ (preserves_pure _)
    exact (plain_log rfl).bind fun _ => preserves_pure _

theorem plain_ignoreCallback (stepRun : StepRun) (reason : String) (duplicate : Bool) :
    Plain (ignoreCallback stepRun reason duplicate) :=
  (plain_log rfl).bind fun _ => (plain_run _).bind fun _ => preserves_pure _

theorem plain_followCallback (stepRun : StepRun) (result : StepResult) :
    Plain (followCallback stepRun result) := by
  have reports : ∀ resumeFrom, Plain do
      return (⟨result, resumeFrom, false,
        (← Job.store (.run stepRun.runId)).status⟩ : CallbackOutcome) :=
    fun _ => (plain_run _).bind fun _ => preserves_pure _
  refine (plain_log rfl).bind fun _ => (plain_run _).bind fun run => .ite ?_ (.ite ?_ ?_)
  · exact (plain_storeSummary _).bind fun _ => reports _
  · exact reports _
  · exact (plain_closeRun _ _ _).bind fun _ => reports _

theorem plain_cancel (runId : Uuid) : Plain (cancel runId) := by
  refine (plain_run runId).bind fun run => .ite (preserves_pure _) ?_
  refine (plain_store rfl).bind fun _ => (plain_log rfl).bind fun _ => ?_
  exact (plain_store rfl).bind fun stepRuns => .ite (plain_closeRun _ _ _) (preserves_pure _)

end Plain

/-! ### How a step is carried out -/

/-- The first thing that the job asks for is to carry a step out, unless it fails before. -/
def OpensWithWork {ε α : Type} (job : ExceptT ε Program α) : Prop :=
  (∃ fault, job.run = .done (.error fault)) ∨
    ∃ request next, job.run = .ask request next ∧ request.role = .work

section Opening

variable {ε α β : Type}

theorem opensWithWork_bind {job : ExceptT ε Program α} (opens : OpensWithWork job)
    (next : α → ExceptT ε Program β) : OpensWithWork (job >>= next) := by
  rcases opens with ⟨fault, fails⟩ | ⟨request, rest, asks, work⟩
  · exact .inl ⟨fault, congrArg (Program.bind · _) fails⟩
  · exact .inr ⟨request, _, congrArg (Program.bind · _) asks, work⟩

theorem opensWithWork_given (given : Except ε α) {next : α → ExceptT ε Program β}
    (opens : ∀ result, given = .ok result → OpensWithWork (next result)) :
    OpensWithWork (ExceptT.mk (pure given) >>= next) := by
  cases given with
  | error fault => exact .inl ⟨fault, rfl⟩
  | ok result => exact opens result rfl

theorem opensWithWork_tryCatch {job : ExceptT ε Program α} (opens : OpensWithWork job)
    {handle : ε → ExceptT ε Program α} (handles : ∀ fault, OpensWithWork (handle fault)) :
    OpensWithWork (tryCatch job handle) := by
  rcases opens with ⟨fault, fails⟩ | ⟨request, rest, asks, work⟩
  · have caught : (tryCatch job handle).run = (handle fault).run :=
      congrArg (Program.bind · _) fails
    rw [OpensWithWork, caught]
    exact handles fault
  · exact .inr ⟨request, _, congrArg (Program.bind · _) asks, work⟩

/-- Whoever carries a step out asks for its work first. -/
theorem opensWithWork_dispatch (equipment : Equipment) (context : StepContext) :
    OpensWithWork (dispatch equipment context) := by
  have fails : ∀ code detail, OpensWithWork (failCurrent context.stepRun.id code detail) :=
    fun _ _ => opensWithWork_bind (.inr ⟨_, _, rfl, rfl⟩) _
  refine opensWithWork_tryCatch (opensWithWork_given _ fun processor _ => ?_) fun fault => ?_
  · cases processor with
    | inline =>
      refine opensWithWork_given _ fun found _ => opensWithWork_given _ fun resolved _ => ?_
      cases resolved with
      | external => exact .inl ⟨_, rfl⟩
      | inline => exact opensWithWork_bind (.inr ⟨_, _, rfl, rfl⟩) _
    | external =>
      refine opensWithWork_given _ fun found _ => opensWithWork_given _ fun external _ => ?_
      exact opensWithWork_bind (.inr ⟨_, _, rfl, rfl⟩) _
    | action =>
      refine opensWithWork_given _ fun found _ => opensWithWork_given _ fun _ _ => ?_
      exact opensWithWork_bind (.inr ⟨_, _, rfl, rfl⟩) _
  · split
    · exact fails _ _
    · exact fails _ _
    · exact .inl ⟨_, rfl⟩

end Opening

end Execution

end Vetting
