import Vetting.Execution.Engine

/-!
Contract: what a program asks for, given what it has been answered so far.

Owns:
- disciplines: what may be asked in a state, and what an answer makes of the state;
- `Program.Heeds` for programs and `Heeds` for programs that may fail, with one rule for
  each way of building them and for each request;
- consequence: a program that heeds a discipline reaches every weaker aim;
- `Preserves`, for jobs that keep what holds of the state, with one rule for each way of building
  them.

Does not own: who answers.

The state is that of the one who asks.  Nothing is said about the rest of the world, so
what a program heeds it heeds whether it runs alone or takes turns with others.
-/

namespace Vetting.Execution

/-- What may be asked in a state, and what an answer may make of the state. -/
structure Discipline (σ : Type) where
  may : σ → Request → Prop
  learns : σ → (request : Request) → request.Answer → σ → Prop

/-- Whatever is answered, the program asks for nothing but what it may, and reaches its aim. -/
def Program.Heeds {σ α : Type} (discipline : Discipline σ) :
    Program α → σ → (α → σ → Prop) → Prop
  | .done result, state, aim => aim result state
  | .ask request next, state, aim =>
    discipline.may state request ∧
      ∀ answer after, discipline.learns state request answer after →
        Program.Heeds discipline (next answer) after aim

/-- One aim for a result and another one for a fault. -/
def Either {σ ε α : Type} (good : α → σ → Prop) (bad : ε → σ → Prop) : Except ε α → σ → Prop
  | .ok result => good result
  | .error fault => bad fault

/-- A program that may fail reaches one aim if it succeeds and another one if it fails. -/
def Heeds {σ ε α : Type} (discipline : Discipline σ) (job : ExceptT ε Program α) (state : σ)
    (good : α → σ → Prop) (bad : ε → σ → Prop) : Prop :=
  Program.Heeds discipline job.run state (Either good bad)

section Aims

variable {σ ε α : Type} {good : α → σ → Prop} {bad : ε → σ → Prop} {state : σ}

@[simp] theorem either_ok (result : α) : Either good bad (.ok result) state ↔ good result state :=
  Iff.rfl

@[simp] theorem either_error (fault : ε) :
    Either good bad (.error fault) state ↔ bad fault state := Iff.rfl

theorem Either.imp {good' : α → σ → Prop} {bad' : ε → σ → Prop} {result : Except ε α}
    (reached : Either good bad result state)
    (onGood : ∀ result, good result state → good' result state)
    (onBad : ∀ fault, bad fault state → bad' fault state) : Either good' bad' result state := by
  cases result with
  | ok result => exact onGood result reached
  | error fault => exact onBad fault reached

end Aims

section Rules

variable {σ ε α β : Type} {discipline : Discipline σ} {state : σ}

theorem Program.Heeds.imp {program : Program α} {aim weaker : α → σ → Prop}
    (heeds : program.Heeds discipline state aim)
    (implies : ∀ result after, aim result after → weaker result after) :
    program.Heeds discipline state weaker := by
  induction program generalizing state with
  | done result => exact implies result state heeds
  | ask request next inductionHypothesis =>
    exact ⟨heeds.1, fun answer after learns =>
      inductionHypothesis answer (heeds.2 answer after learns)⟩

theorem Program.heeds_bind (program : Program α) (next : α → Program β) (aim : β → σ → Prop) :
    (program >>= next).Heeds discipline state aim ↔
      program.Heeds discipline state fun result after =>
        (next result).Heeds discipline after aim := by
  change (program.bind next).Heeds discipline state aim ↔ _
  induction program generalizing state with
  | done result => rfl
  | ask request rest inductionHypothesis =>
    simp only [Program.bind, Program.Heeds]
    apply and_congr_right
    intro _
    exact forall₃_congr fun answer after _ => inductionHypothesis answer

/-- Looking at the result of a program that may fail is reaching both aims. -/
theorem program_heeds_run {job : ExceptT ε Program α} {aim : Except ε α → σ → Prop} :
    Program.Heeds discipline job.run state aim ↔
      Heeds discipline job state (fun result => aim (.ok result))
        fun fault => aim (.error fault) := by
  refine ⟨fun heeds => heeds.imp ?_, fun heeds => Program.Heeds.imp heeds ?_⟩
  all_goals
    intro result after reached
    cases result with
    | ok result => exact reached
    | error fault => exact reached

variable {good : α → σ → Prop} {bad : ε → σ → Prop}

theorem Heeds.imp {job : ExceptT ε Program α} {good' : α → σ → Prop} {bad' : ε → σ → Prop}
    (heeds : Heeds discipline job state good bad)
    (onGood : ∀ result after, good result after → good' result after)
    (onBad : ∀ fault after, bad fault after → bad' fault after) :
    Heeds discipline job state good' bad' := by
  refine Program.Heeds.imp heeds fun result after reached => ?_
  exact reached.imp (onGood · after) (onBad · after)

@[simp] theorem heeds_pure (result : α) :
    Heeds discipline (pure result : ExceptT ε Program α) state good bad ↔ good result state :=
  Iff.rfl

@[simp] theorem heeds_throw (fault : ε) :
    Heeds discipline (throw fault : ExceptT ε Program α) state good bad ↔ bad fault state :=
  Iff.rfl

@[simp] theorem heeds_given (result : Except ε α) :
    Heeds discipline (ExceptT.mk (pure result)) state good bad ↔ Either good bad result state :=
  Iff.rfl

@[simp] theorem heeds_bind {good : β → σ → Prop} (job : ExceptT ε Program α)
    (next : α → ExceptT ε Program β) :
    Heeds discipline (job >>= next) state good bad ↔
      Heeds discipline job state (fun result after => Heeds discipline (next result) after good bad)
        bad :=
  (Program.heeds_bind _ _ _).trans program_heeds_run

@[simp] theorem heeds_map {good : β → σ → Prop} (change : α → β) (job : ExceptT ε Program α) :
    Heeds discipline (change <$> job) state good bad ↔
      Heeds discipline job state (fun result after => good (change result) after) bad := by
  rw [map_eq_pure_bind, heeds_bind]
  simp only [heeds_pure]

@[simp] theorem heeds_tryCatch (job : ExceptT ε Program α) (handle : ε → ExceptT ε Program α) :
    Heeds discipline (tryCatch job handle) state good bad ↔
      Heeds discipline job state good fun fault after =>
        Heeds discipline (handle fault) after good bad :=
  (Program.heeds_bind _ _ _).trans program_heeds_run

@[simp] theorem heeds_lift (program : Program α) :
    Heeds discipline (ExceptT.lift program : ExceptT ε Program α) state good bad ↔
      program.Heeds discipline state good := by
  change Program.Heeds discipline (Except.ok <$> program) state _ ↔ _
  rw [map_eq_pure_bind, Program.heeds_bind]
  rfl

@[simp] theorem heeds_during {bad : Interruption → σ → Prop} (current : Option StepRun)
    (job : Job α) :
    Heeds discipline (during current job) state good bad ↔
      Heeds discipline job state good fun fault => bad ⟨fault, current⟩ := by
  change Program.Heeds discipline
    (Except.mapError (fun fault => Interruption.mk fault current) <$> job.run) state _ ↔ _
  rw [map_eq_pure_bind, Program.heeds_bind]
  exact program_heeds_run

theorem heeds_ite {condition : Prop} [Decidable condition] {first second : ExceptT ε Program α} :
    Heeds discipline (if condition then first else second) state good bad ↔
      (condition → Heeds discipline first state good bad) ∧
        (¬ condition → Heeds discipline second state good bad) := by
  by_cases holds : condition <;> simp [holds]

end Rules

section Requests

variable {σ : Type} {discipline : Discipline σ} {state : σ} {bad : EngineFault → σ → Prop}

@[simp] theorem heeds_store (request : StoreRequest) {good : request.Result → σ → Prop} :
    Heeds discipline (Job.store request) state good bad ↔
      discipline.may state (.store request) ∧
        ∀ answer after, discipline.learns state (.store request) answer after →
          Either good bad answer after :=
  Iff.rfl

@[simp] theorem heeds_log (runId : Uuid) (kind : EventKind) {good : Unit → σ → Prop} :
    Heeds discipline (Job.log runId kind) state good bad ↔
      discipline.may state (.log runId kind) ∧
        ∀ answer after, discipline.learns state (.log runId kind) answer after →
          good answer after :=
  Iff.rfl

@[simp] theorem heeds_stamp {good : Stamp → σ → Prop} :
    Heeds discipline Job.stamp state good bad ↔
      discipline.may state .stamp ∧
        ∀ stamp after, discipline.learns state .stamp stamp after → good stamp after :=
  Iff.rfl

@[simp] theorem heeds_now {good : Timestamp → σ → Prop} :
    Heeds discipline Job.now state good bad ↔
      discipline.may state .stamp ∧
        ∀ (stamp : Stamp) (after : σ), discipline.learns state .stamp stamp after →
          good stamp.time after := by
  simp only [Job.now, heeds_bind, heeds_stamp, heeds_pure]

@[simp] theorem heeds_backendAvailable {good : Bool → σ → Prop} :
    Heeds discipline Job.backendAvailable state good bad ↔
      discipline.may state .backendAvailable ∧
        ∀ available after, discipline.learns state .backendAvailable available after →
          good available after :=
  Iff.rfl

@[simp] theorem heeds_validate (validator : Validator) (submission : Submission)
    {good : ValidationOutcome → σ → Prop} :
    Heeds discipline (Job.validate validator submission) state good bad ↔
      discipline.may state (.validate validator submission) ∧
        ∀ answer after, discipline.learns state (.validate validator submission) answer after →
          Either good bad answer after :=
  Iff.rfl

@[simp] theorem heeds_act (type : String) (context : ActionContext)
    {good : ActionOutcome → σ → Prop} :
    Heeds discipline (Job.act type context) state good bad ↔
      discipline.may state (.act type context) ∧
        ∀ answer after, discipline.learns state (.act type context) answer after →
          Either good bad answer after :=
  Iff.rfl

@[simp] theorem heeds_launch (job : JobRequest) {good : JobResponse → σ → Prop} :
    Heeds discipline (Job.launch job) state good bad ↔
      discipline.may state (.launch job) ∧
        ∀ answer after, discipline.learns state (.launch job) answer after →
          Either good (fun fault => bad fault.toEngineFault) answer after := by
  apply and_congr_right
  intro _
  refine forall₃_congr fun answer after _ => ?_
  cases answer <;> rfl

end Requests

/-! ### Jobs that keep something -/

/-- From a state of which something holds the job heeds the discipline, and it leaves such a state,
whether it succeeds or fails. -/
def Preserves {σ ε α : Type} (discipline : Discipline σ) (kept : σ → Prop)
    (job : ExceptT ε Program α) : Prop :=
  ∀ state, kept state → Heeds discipline job state (fun _ => kept) fun _ => kept

section Preserving

variable {σ ε α β : Type} {discipline : Discipline σ} {kept : σ → Prop}

theorem preserves_pure (result : α) :
    Preserves discipline kept (pure result : ExceptT ε Program α) := fun _ holds => holds

theorem preserves_throw (fault : ε) :
    Preserves discipline kept (throw fault : ExceptT ε Program α) := fun _ holds => holds

theorem preserves_given (result : Except ε α) :
    Preserves discipline kept (ExceptT.mk (pure result)) := by
  intro state holds
  cases result <;> exact holds

theorem Preserves.bind {job : ExceptT ε Program α} {next : α → ExceptT ε Program β}
    (first : Preserves discipline kept job)
    (second : ∀ result, Preserves discipline kept (next result)) :
    Preserves discipline kept (job >>= next) := by
  intro state holds
  apply (heeds_bind job next).mpr
  exact (first state holds).imp (fun result after => second result after) fun _ _ => id

theorem Preserves.ite {condition : Prop} [Decidable condition] {first second : ExceptT ε Program α}
    (onTrue : Preserves discipline kept first) (onFalse : Preserves discipline kept second) :
    Preserves discipline kept (if condition then first else second) := by
  split
  · exact onTrue
  · exact onFalse

theorem Preserves.tryCatch {job : ExceptT ε Program α} {handle : ε → ExceptT ε Program α}
    (first : Preserves discipline kept job)
    (second : ∀ fault, Preserves discipline kept (handle fault)) :
    Preserves discipline kept (tryCatch job handle) := by
  intro state holds
  apply (heeds_tryCatch job handle).mpr
  exact (first state holds).imp (fun _ _ => id) fun fault after => second fault after

/-- Looking at the result of a job keeps what the job keeps. -/
theorem Preserves.attempt {ε' : Type} {job : ExceptT ε Program α}
    (preserves : Preserves discipline kept job) :
    Preserves discipline kept (ExceptT.lift job.run : ExceptT ε' Program (Except ε α)) := by
  intro state holds
  apply (heeds_lift _).mpr
  apply program_heeds_run.mpr
  exact (preserves state holds).imp (fun _ _ => id) fun _ _ => id

theorem Preserves.during {job : Job α} (preserves : Preserves discipline kept job)
    (current : Option StepRun) : Preserves discipline kept (Execution.during current job) := by
  intro state holds
  apply (heeds_during current job).mpr
  exact (preserves state holds).imp (fun _ _ => id) fun _ _ => id

end Preserving

end Vetting.Execution
