import Vetting.Proofs.Program.Discipline

/-!
Contract: what a program asks for at all, whatever it is answered.

Owns:
- `Concern`: what a request has to do with;
- `Asks`: a program that may fail asks only for what is allowed, with one rule for each way
  of building it;
- that such a program heeds every discipline under which all of this may be asked;
- two disciplines at once, and programs whose result does not matter.

Does not own: what the operations on a run ask for (`Vetting.Proofs.Run.Concerns`).
-/

namespace Vetting.Execution

/-- What a request has to do with. -/
inductive Concern where
  /-- Nothing is changed by it. -/
  | inquiry
  /-- An event is logged that is not about the beginning or the end of a run. -/
  | telling
  /-- A run begins, or it is told that it has begun. -/
  | start
  /-- A run is closed, or it is told that it has been closed. -/
  | close
  /-- A run gets a summary or a wish to be cancelled. -/
  | marking
  /-- A step of the run begins. -/
  | beginning (runId : Uuid)
  /-- A step run begins again. -/
  | recovery
  /-- A step run or its findings are written. -/
  | recording
  | receipt
  | launch
deriving DecidableEq

def Request.concern : Request → Concern
  | .store (.startRun _ _) | .log _ (.runStarted _ _) => .start
  | .store (.closeRun _ _ _ _) | .log _ (.runFinalized _ _) => .close
  | .store (.saveSummary _ _) | .store (.flagCancel _) => .marking
  | .store (.acquire runId _ _) => .beginning runId
  | .store (.restart _ _ _) => .recovery
  | .store (.updateStepRun _) | .store (.replaceFindings _ _) | .store (.appendFindings _ _) =>
    .recording
  | .store (.recordCallback _ _ _) | .store (.releaseCallback _) => .receipt
  | .launch _ => .launch
  | .log _ _ => .telling
  | _ => .inquiry

/-- A discipline without memory: whatever is allowed may be asked at any time. -/
def allowing (allowed : Request → Prop) : Discipline Unit where
  may _ request := allowed request
  learns _ _ _ _ := True

/-- Whatever is answered, the job asks only for what has to do with these concerns. -/
def Asks {ε α : Type} (concerns : List Concern) (job : ExceptT ε Program α) : Prop :=
  Heeds (allowing fun request => request.concern ∈ concerns) job () (fun _ _ => True)
    fun _ _ => True

section Rules

variable {ε α β : Type} {concerns : List Concern}

theorem asks_pure (result : α) : Asks concerns (pure result : ExceptT ε Program α) := trivial

theorem asks_throw (fault : ε) : Asks concerns (throw fault : ExceptT ε Program α) := trivial

theorem asks_given (result : Except ε α) : Asks concerns (ExceptT.mk (pure result)) := by
  cases result <;> trivial

theorem Asks.bind {job : ExceptT ε Program α} {next : α → ExceptT ε Program β}
    (first : Asks concerns job) (second : ∀ result, Asks concerns (next result)) :
    Asks concerns (job >>= next) := by
  apply (heeds_bind job next).mpr
  exact first.imp (fun result _ _ => second result) fun _ _ _ => trivial

theorem Asks.ite {condition : Prop} [Decidable condition] {first second : ExceptT ε Program α}
    (onTrue : Asks concerns first) (onFalse : Asks concerns second) :
    Asks concerns (if condition then first else second) := by
  split
  · exact onTrue
  · exact onFalse

theorem Asks.tryCatch {job : ExceptT ε Program α} {handle : ε → ExceptT ε Program α}
    (first : Asks concerns job) (second : ∀ fault, Asks concerns (handle fault)) :
    Asks concerns (tryCatch job handle) := by
  apply (heeds_tryCatch job handle).mpr
  exact first.imp (fun _ _ _ => trivial) fun fault _ _ => second fault

/-- Looking at the result of a job asks for nothing more. -/
theorem Asks.attempt {ε' : Type} {job : ExceptT ε Program α} (asks : Asks concerns job) :
    Asks concerns (ExceptT.lift job.run : ExceptT ε' Program (Except ε α)) := by
  apply (heeds_lift _).mpr
  apply program_heeds_run.mpr
  exact asks.imp (fun _ _ _ => trivial) fun _ _ _ => trivial

theorem Asks.during {job : Job α} (asks : Asks concerns job) (current : Option StepRun) :
    Asks concerns (Execution.during current job) := by
  apply (heeds_during current job).mpr
  exact asks.imp (fun _ _ _ => trivial) fun _ _ _ => trivial

theorem asks_store (request : StoreRequest)
    (member : (Request.store request).concern ∈ concerns) : Asks concerns (Job.store request) := by
  refine ⟨member, fun answer _ _ => ?_⟩
  cases answer <;> trivial

theorem asks_log {runId : Uuid} {kind : EventKind}
    (member : (Request.log runId kind).concern ∈ concerns) : Asks concerns (Job.log runId kind) :=
  ⟨member, fun _ _ _ => trivial⟩

theorem asks_stamp (member : Concern.inquiry ∈ concerns) : Asks concerns Job.stamp :=
  ⟨member, fun _ _ _ => trivial⟩

theorem asks_now (member : Concern.inquiry ∈ concerns) : Asks concerns Job.now :=
  (asks_stamp member).bind fun _ => asks_pure _

theorem asks_backendAvailable (member : Concern.inquiry ∈ concerns) :
    Asks concerns Job.backendAvailable :=
  ⟨member, fun _ _ _ => trivial⟩

theorem asks_validate (member : Concern.inquiry ∈ concerns) (validator : Validator)
    (submission : Submission) : Asks concerns (Job.validate validator submission) := by
  refine ⟨member, fun answer _ _ => ?_⟩
  cases answer <;> trivial

theorem asks_act (member : Concern.inquiry ∈ concerns) (type : String) (context : ActionContext) :
    Asks concerns (Job.act type context) := by
  refine ⟨member, fun answer _ _ => ?_⟩
  cases answer <;> trivial

theorem asks_launch (member : Concern.launch ∈ concerns) (job : JobRequest) :
    Asks concerns (Job.launch job) := by
  refine ⟨member, fun answer _ _ => ?_⟩
  cases answer <;> trivial

/-- What only looks into the store. -/
theorem asks_inquiry (request : StoreRequest)
    (inquires : (Request.store request).concern = .inquiry) :
    Asks [.inquiry] (Job.store request) := by
  apply asks_store
  rw [inquires]
  exact List.mem_singleton_self _

theorem asks_clock : Asks [.inquiry] Job.now := asks_now (List.mem_singleton_self _)

/-- What only tells of something. -/
theorem asks_telling (runId : Uuid) (kind : EventKind)
    (tells : (Request.log runId kind).concern = .telling) : Asks [.telling] (Job.log runId kind) := by
  apply asks_log
  rw [tells]
  exact List.mem_singleton_self _

end Rules

section Heeding

variable {σ ε α : Type} {discipline : Discipline σ} {state : σ}

theorem heeds_of_allowing {allowed : Request → Prop} {kept : σ → Prop}
    {program : Program α} {aim : α → Unit → Prop}
    (asks : program.Heeds (allowing allowed) () aim)
    (may : ∀ state request, kept state → allowed request → discipline.may state request)
    (keeps : ∀ state request answer after, kept state → allowed request →
      discipline.learns state request answer after → kept after) (holds : kept state) :
    program.Heeds discipline state fun _ => kept := by
  induction program generalizing state with
  | done result => exact holds
  | ask request next inductionHypothesis =>
    obtain ⟨allows, asks⟩ := asks
    refine ⟨may state request holds allows, fun answer after learns => ?_⟩
    exact inductionHypothesis answer (asks answer () trivial)
      (keeps state request answer after holds allows learns)

/-- A job heeds a discipline if all that it asks for may be asked, and keeps what all of this
keeps. -/
theorem Asks.heeds {concerns : List Concern} {job : ExceptT ε Program α} (asks : Asks concerns job)
    (kept : σ → Prop)
    (may : ∀ state request, kept state → request.concern ∈ concerns →
      discipline.may state request)
    (keeps : ∀ state request answer after, kept state → request.concern ∈ concerns →
      discipline.learns state request answer after → kept after) (holds : kept state) :
    Heeds discipline job state (fun _ => kept) fun _ => kept := by
  refine Program.Heeds.imp (heeds_of_allowing asks may keeps holds) fun result after holds => ?_
  cases result <;> exact holds

theorem Asks.mono {concerns wider : List Concern} {job : ExceptT ε Program α}
    (asks : Asks concerns job) (subset : concerns ⊆ wider) : Asks wider job :=
  (asks.heeds (fun _ => True) (fun _ _ _ member => subset member) (fun _ _ _ _ _ _ _ => trivial)
    trivial).imp (fun _ _ _ => trivial) fun _ _ _ => trivial

end Heeding

/-! ### Two disciplines, and results that do not matter -/

section Both

variable {σ τ α : Type}

/-- Two disciplines at once, each with its own state. -/
def Discipline.and (first : Discipline σ) (second : Discipline τ) : Discipline (σ × τ) where
  may state request := first.may state.1 request ∧ second.may state.2 request
  learns state request answer after :=
    first.learns state.1 request answer after.1 ∧ second.learns state.2 request answer after.2

theorem Program.Heeds.and {first : Discipline σ} {second : Discipline τ} {program : Program α}
    {one : σ} {other : τ} {aim : α → σ → Prop} {goal : α → τ → Prop}
    (left : program.Heeds first one aim) (right : program.Heeds second other goal) :
    program.Heeds (first.and second) (one, other)
      fun result after => aim result after.1 ∧ goal result after.2 := by
  induction program generalizing one other with
  | done result => exact ⟨left, right⟩
  | ask request next inductionHypothesis =>
    refine ⟨⟨left.1, right.1⟩, fun answer after learns => ?_⟩
    exact inductionHypothesis answer (left.2 answer _ learns.1) (right.2 answer _ learns.2)

/-- The program, whatever its result. -/
def Program.forgetful (program : Program α) : Program Unit := program >>= fun _ => pure ()

theorem Program.Heeds.forgetful {discipline : Discipline σ} {program : Program α} {state : σ}
    {aim : α → σ → Prop} (heeds : program.Heeds discipline state aim) :
    program.forgetful.Heeds discipline state fun _ _ => True :=
  (Program.heeds_bind _ _ _).mpr (heeds.imp fun _ _ _ => trivial)

end Both

end Vetting.Execution
