import Vetting.Execution.Memory
import Vetting.Proofs.Program.Discipline

/-!
Contract: what programs ensure in a world, whatever plug-ins and the backend answer.

Owns:
- `World.Answers`, what a request may be answered in a world, and what that adds to the log;
- regimes: which answers may come from outside, and what is to hold whenever a program asks;
- `Program.Ensures` for programs and `Ensures` for programs that may fail;
- a regime as the discipline of a program that has a world for itself, and from this one rule
  for each way of building programs and for each request;
- consequence: a weaker aim is ensured as well.

Does not own: what particular programs ensure, and runs with given plug-ins
(`Vetting.Proofs.Program.Outside`).

A stamp may be any moment with any identifiers, so nothing that is ensured rests on
the clock.
-/

namespace Vetting.Execution

def Request.isOutside : Request → Bool
  | .validate _ _ | .act _ _ | .backendAvailable | .launch _ => true
  | .store _ | .log _ _ | .stamp => false

/-- What may be answered from outside, and what is to hold whenever a program asks. -/
structure Regime where
  mayAnswer : (request : Request) → request.Answer → Prop
  watch : World → Request → Prop

/-- An answer that a request may get in a world, and the world after it. -/
def World.Answers (mayAnswer : (request : Request) → request.Answer → Prop) (world : World) :
    (request : Request) → request.Answer → World → Prop
  | .store request, answer, after =>
    answer = (world.store.answer request).1 ∧
      after = { world with store := (world.store.answer request).2 }
  | .log runId kind, _, after =>
    ∃ time, after = { world with log := (world.log.append runId kind time).1 }
  | .stamp, _, after => ∃ clock, after = { world with clock }
  | .validate validator submission, answer, after =>
    mayAnswer (.validate validator submission) answer ∧ after = world
  | .act type context, answer, after => mayAnswer (.act type context) answer ∧ after = world
  | .backendAvailable, answer, after => mayAnswer .backendAvailable answer ∧ after = world
  | .launch job, answer, after => mayAnswer (.launch job) answer ∧ after = world

/-- The kinds of event that a request adds to the log of a run. -/
def Request.logs (runId : Uuid) : Request → List EventKind
  | .log id kind => if id = runId then [kind] else []
  | _ => []

/-- A log gets longer by what is logged. -/
theorem World.Answers.log {mayAnswer : (request : Request) → request.Answer → Prop}
    {world after : World} {request : Request} {answer : request.Answer}
    (answers : world.Answers mayAnswer request answer after) (runId : Uuid) :
    (after.log.ofRun runId).map Event.kind =
      (world.log.ofRun runId).map Event.kind ++ request.logs runId := by
  cases request with
  | log id kind =>
    obtain ⟨time, rfl⟩ := answers
    by_cases same : id = runId <;> simp [EventLog.append, EventLog.ofRun, Request.logs, same]
  | store =>
    obtain ⟨rfl, rfl⟩ := answers
    exact (List.append_nil _).symm
  | stamp | validate | act | backendAvailable | launch =>
    obtain ⟨_, rfl⟩ := answers
    exact (List.append_nil _).symm

/-- Whatever is answered, every request is asked as the regime wants it, and the aim is reached. -/
def Program.Ensures {α : Type} (regime : Regime) :
    Program α → World → (α → World → Prop) → Prop
  | .done result, world, aim => aim result world
  | .ask request next, world, aim =>
    regime.watch world request ∧
      ∀ answer after, world.Answers regime.mayAnswer request answer after →
        Program.Ensures regime (next answer) after aim

/-- A program that may fail reaches one aim if it succeeds and another one if it fails. -/
def Ensures {ε α : Type} (regime : Regime) (job : ExceptT ε Program α) (world : World)
    (good : α → World → Prop) (bad : ε → World → Prop) : Prop :=
  Program.Ensures regime job.run world fun
    | .ok result => good result
    | .error fault => bad fault

/-- The discipline of a program that has a world for itself. -/
def Regime.discipline (regime : Regime) : Discipline World where
  may := regime.watch
  learns world request answer after := world.Answers regime.mayAnswer request answer after

theorem Program.ensures_iff_heeds {α : Type} {regime : Regime} {world : World}
    {program : Program α} {aim : α → World → Prop} :
    Program.Ensures regime program world aim ↔ program.Heeds regime.discipline world aim := by
  induction program generalizing world with
  | done result => rfl
  | ask request next inductionHypothesis =>
    exact and_congr_right fun _ => forall₃_congr fun answer _ _ => inductionHypothesis answer

section Rules

variable {ε α β : Type} {regime : Regime} {world : World}

theorem Program.ensures_bind (program : Program α) (next : α → Program β)
    (aim : β → World → Prop) :
    Program.Ensures regime (program >>= next) world aim ↔
      Program.Ensures regime program world fun result after =>
        Program.Ensures regime (next result) after aim := by
  simp only [Program.ensures_iff_heeds, Program.heeds_bind]

theorem Program.Ensures.imp {program : Program α} {aim weaker : α → World → Prop}
    (ensures : Program.Ensures regime program world aim)
    (implies : ∀ result after, aim result after → weaker result after) :
    Program.Ensures regime program world weaker :=
  Program.ensures_iff_heeds.mpr ((Program.ensures_iff_heeds.mp ensures).imp implies)

variable {good : α → World → Prop} {bad : ε → World → Prop}

theorem ensures_iff_heeds {job : ExceptT ε Program α} :
    Ensures regime job world good bad ↔ Heeds regime.discipline job world good bad := by
  refine Program.ensures_iff_heeds.trans ⟨fun heeds => Program.Heeds.imp heeds ?_,
    fun heeds => Program.Heeds.imp heeds ?_⟩
  all_goals
    intro result after reached
    cases result with
    | ok result => exact reached
    | error fault => exact reached

theorem Ensures.imp {job : ExceptT ε Program α} {good' : α → World → Prop}
    {bad' : ε → World → Prop} (ensures : Ensures regime job world good bad)
    (onGood : ∀ result after, good result after → good' result after)
    (onBad : ∀ fault after, bad fault after → bad' fault after) :
    Ensures regime job world good' bad' :=
  ensures_iff_heeds.mpr ((ensures_iff_heeds.mp ensures).imp onGood onBad)

@[simp] theorem ensures_pure (result : α) :
    Ensures regime (pure result : ExceptT ε Program α) world good bad ↔ good result world :=
  Iff.rfl

@[simp] theorem ensures_throw (fault : ε) :
    Ensures regime (throw fault : ExceptT ε Program α) world good bad ↔ bad fault world :=
  Iff.rfl

@[simp] theorem ensures_given (result : Except ε α) :
    Ensures regime (ExceptT.mk (pure result)) world good bad ↔
      match result with
      | .ok result => good result world
      | .error fault => bad fault world := by
  cases result <;> rfl

@[simp] theorem ensures_bind {good : β → World → Prop} (job : ExceptT ε Program α)
    (next : α → ExceptT ε Program β) :
    Ensures regime (job >>= next) world good bad ↔
      Ensures regime job world (fun result after => Ensures regime (next result) after good bad)
        bad := by
  simp only [ensures_iff_heeds, heeds_bind]

@[simp] theorem ensures_map {good : β → World → Prop} (change : α → β)
    (job : ExceptT ε Program α) :
    Ensures regime (change <$> job) world good bad ↔
      Ensures regime job world (fun result after => good (change result) after) bad := by
  simp only [ensures_iff_heeds, heeds_map]

@[simp] theorem ensures_tryCatch {good : α → World → Prop} {bad : ε → World → Prop}
    (job : ExceptT ε Program α) (handle : ε → ExceptT ε Program α) :
    Ensures regime (tryCatch job handle) world good bad ↔
      Ensures regime job world good fun fault after =>
        Ensures regime (handle fault) after good bad := by
  simp only [ensures_iff_heeds, heeds_tryCatch]

@[simp] theorem ensures_lift (program : Program α) :
    Ensures regime (ExceptT.lift program : ExceptT ε Program α) world good bad ↔
      Program.Ensures regime program world good := by
  simp only [ensures_iff_heeds, Program.ensures_iff_heeds, heeds_lift]

/-- Looking at the result of a program that may fail is reaching both aims. -/
theorem program_ensures_run {job : ExceptT ε Program α} {aim : Except ε α → World → Prop} :
    Program.Ensures regime job.run world aim ↔
      Ensures regime job world (fun result => aim (.ok result)) (fun fault => aim (.error fault)) := by
  simp only [ensures_iff_heeds, Program.ensures_iff_heeds, program_heeds_run]

@[simp] theorem ensures_during {bad : Interruption → World → Prop} (current : Option StepRun)
    (job : Job α) :
    Ensures regime (during current job) world good bad ↔
      Ensures regime job world good fun fault => bad ⟨fault, current⟩ := by
  simp only [ensures_iff_heeds, heeds_during]

theorem ensures_ite {condition : Prop} [Decidable condition] {first second : ExceptT ε Program α} :
    Ensures regime (if condition then first else second) world good bad ↔
      (condition → Ensures regime first world good bad) ∧
        (¬ condition → Ensures regime second world good bad) := by
  simp only [ensures_iff_heeds, heeds_ite]

end Rules

section Requests

variable {regime : Regime} {world : World} {bad : EngineFault → World → Prop}

/-- A store has one answer, and leaves one world. -/
theorem store_iff {request : StoreRequest}
    {aim : (Request.store request).Answer → World → Prop} :
    (∀ answer after, answer = (world.store.answer request).1 ∧
        after = { world with store := (world.store.answer request).2 } → aim answer after) ↔
      aim (world.store.answer request).1
        { world with store := (world.store.answer request).2 } := by
  refine ⟨fun reached => reached _ _ ⟨rfl, rfl⟩, ?_⟩
  rintro reached answer after ⟨rfl, rfl⟩
  exact reached

@[simp] theorem ensures_store (request : StoreRequest) {good : request.Result → World → Prop} :
    Ensures regime (Job.store request) world good bad ↔
      regime.watch world (.store request) ∧
        match (world.store.answer request).1 with
        | .ok result => good result { world with store := (world.store.answer request).2 }
        | .error fault => bad fault { world with store := (world.store.answer request).2 } := by
  refine ensures_iff_heeds.trans (and_congr_right fun _ => store_iff.trans ?_)
  cases (world.store.answer request).1 <;> rfl

@[simp] theorem ensures_log (runId : Uuid) (kind : EventKind) {good : Unit → World → Prop} :
    Ensures regime (Job.log runId kind) world good bad ↔
      regime.watch world (.log runId kind) ∧
        ∀ time, good () { world with log := (world.log.append runId kind time).1 } := by
  refine ensures_iff_heeds.trans (and_congr_right fun _ => ?_)
  refine ⟨fun reached time => reached () _ ⟨time, rfl⟩, ?_⟩
  rintro reached ⟨⟩ after ⟨time, rfl⟩
  exact reached time

@[simp] theorem ensures_stamp {good : Stamp → World → Prop} :
    Ensures regime Job.stamp world good bad ↔
      regime.watch world .stamp ∧ ∀ stamp clock, good stamp { world with clock } := by
  refine ensures_iff_heeds.trans (and_congr_right fun _ => ?_)
  refine ⟨fun reached stamp clock => reached stamp _ ⟨clock, rfl⟩, ?_⟩
  rintro reached stamp after ⟨clock, rfl⟩
  exact reached stamp clock

@[simp] theorem ensures_now {good : Timestamp → World → Prop} :
    Ensures regime Job.now world good bad ↔
      regime.watch world .stamp ∧ ∀ stamp : Stamp, ∀ clock, good stamp.time { world with clock } := by
  simp only [Job.now, ensures_bind, ensures_stamp, ensures_pure]

/-- An answer from outside leaves the world as it is. -/
theorem outside_iff {β : Type} {may : β → Prop} {aim : β → World → Prop} :
    (∀ answer after, may answer ∧ after = world → aim answer after) ↔
      ∀ answer, may answer → aim answer world := by
  refine ⟨fun reached answer may => reached answer world ⟨may, rfl⟩, ?_⟩
  rintro reached answer after ⟨may, rfl⟩
  exact reached answer may

@[simp] theorem ensures_backendAvailable {good : Bool → World → Prop} :
    Ensures regime Job.backendAvailable world good bad ↔
      regime.watch world .backendAvailable ∧
        ∀ available, regime.mayAnswer .backendAvailable available → good available world :=
  ensures_iff_heeds.trans (and_congr_right fun _ => outside_iff)

@[simp] theorem ensures_validate (validator : Validator) (submission : Submission)
    {good : ValidationOutcome → World → Prop} :
    Ensures regime (Job.validate validator submission) world good bad ↔
      regime.watch world (.validate validator submission) ∧
        ∀ answer, regime.mayAnswer (.validate validator submission) answer →
          match answer with
          | .ok outcome => good outcome world
          | .error fault => bad fault world := by
  refine ensures_iff_heeds.trans (and_congr_right fun _ => outside_iff.trans ?_)
  exact forall₂_congr fun answer _ => by cases answer <;> rfl

@[simp] theorem ensures_act (type : String) (context : ActionContext)
    {good : ActionOutcome → World → Prop} :
    Ensures regime (Job.act type context) world good bad ↔
      regime.watch world (.act type context) ∧
        ∀ answer, regime.mayAnswer (.act type context) answer →
          match answer with
          | .ok outcome => good outcome world
          | .error fault => bad fault world := by
  refine ensures_iff_heeds.trans (and_congr_right fun _ => outside_iff.trans ?_)
  exact forall₂_congr fun answer _ => by cases answer <;> rfl

@[simp] theorem ensures_launch (request : JobRequest) {good : JobResponse → World → Prop} :
    Ensures regime (Job.launch request) world good bad ↔
      regime.watch world (.launch request) ∧
        ∀ answer, regime.mayAnswer (.launch request) answer →
          match answer with
          | .ok response => good response world
          | .error fault => bad fault.toEngineFault world := by
  rw [ensures_iff_heeds, heeds_launch]
  refine and_congr_right fun _ => outside_iff.trans ?_
  exact forall₂_congr fun answer _ => by cases answer <;> rfl

end Requests

end Vetting.Execution
