import Vetting.Proofs.Program.Outside

/-!
Contract: programs whose store may refuse whatever it is asked.

Owns:
- `World.Falters`: what may be answered if the store may also refuse, with any fault, and then
  stays as it is;
- `Program.Stumbles`: how far a program gets that way, and what is left of it to do;
- `faltering`, the discipline of a program that has such a store for itself, and rules for what
  it asks for;
- what such a program leaves as far as it gets, and that one which is refused nothing and asks
  for nothing from outside comes to its end;
- stumbling over refusals that are given beforehand.

Does not own: a store whose writes alone fail (`Vetting.Proofs.Program.Wavering`).
-/

namespace Vetting.Execution

/-- A request is answered in a world, or refused by its store. -/
inductive World.Falters (mayAnswer : (request : Request) → request.Answer → Prop) (world : World) :
    (request : Request) → request.Answer → World → Prop
  | answered {request : Request} {answer : request.Answer} {after : World}
      (answers : world.Answers mayAnswer request answer after) :
    Falters mayAnswer world request answer after
  | refused (request : StoreRequest) (fault : EngineFault) :
    Falters mayAnswer world (.store request) (.error fault) world

/-- A program gets so far while its store may refuse, and may be stopped there. -/
inductive Program.Stumbles {α : Type} (mayAnswer : (request : Request) → request.Answer → Prop) :
    Program α → World → Program α → World → Prop
  | here (program : Program α) (world : World) : Stumbles mayAnswer program world program world
  | asked {request : Request} {next : request.Answer → Program α} {rest : Program α}
      {world middle after : World} {answer : request.Answer}
      (falters : world.Falters mayAnswer request answer middle)
      (goesOn : Stumbles mayAnswer (next answer) middle rest after) :
    Stumbles mayAnswer (.ask request next) world rest after

section Stumbling

variable {α β : Type} {mayAnswer : (request : Request) → request.Answer → Prop}
  {world middle after : World}

theorem Program.Stumbles.trans {program between rest : Program α}
    (first : program.Stumbles mayAnswer world between middle)
    (second : between.Stumbles mayAnswer middle rest after) :
    program.Stumbles mayAnswer world rest after := by
  induction first with
  | here => exact second
  | asked falters _ inductionHypothesis => exact .asked falters (inductionHypothesis second)

theorem Program.Stumbles.bind {program rest : Program α}
    (stumbles : program.Stumbles mayAnswer world rest after) (next : α → Program β) :
    (program >>= next).Stumbles mayAnswer world (rest >>= next) after := by
  induction stumbles with
  | here => exact .here _ _
  | asked falters _ inductionHypothesis => exact .asked falters inductionHypothesis

/-- A job that has come to a result goes on with what comes after it. -/
theorem Program.Stumbles.continues {ε : Type} {job : ExceptT ε Program α} {result : α}
    (stumbles : job.run.Stumbles mayAnswer world (.done (.ok result)) after)
    (next : α → ExceptT ε Program β) :
    (job >>= next).run.Stumbles mayAnswer world (next result).run after :=
  stumbles.bind _

end Stumbling

/-- Having a store for oneself that may refuse what it is asked, on a condition.  Something may be
asked if the watch over the store has nothing against it. -/
def faltering (mayAnswer : (request : Request) → request.Answer → Prop) (refuses : Prop)
    (watch : Store → Request → Prop) : Discipline Store where
  may := watch
  learns store request answer after := match request, answer with
    | .store request, answer => (answer, after) = store.answer request ∨
      refuses ∧ after = store ∧ ∃ fault, answer = .error fault
    | .log _ _, _ | .stamp, _ => after = store
    | .validate validator submission, answer =>
      mayAnswer (.validate validator submission) answer ∧ after = store
    | .act type context, answer => mayAnswer (.act type context) answer ∧ after = store
    | .backendAvailable, answer => mayAnswer .backendAvailable answer ∧ after = store
    | .launch job, answer => mayAnswer (.launch job) answer ∧ after = store

section Soundness

variable {α : Type} {mayAnswer : (request : Request) → request.Answer → Prop} {refuses : Prop}
  {watch : Store → Request → Prop} {world after : World}

theorem World.Answers.learns {request : Request} {answer : request.Answer}
    (answers : world.Answers mayAnswer request answer after) :
    (faltering mayAnswer refuses watch).learns world.store request answer after.store := by
  cases request with
  | store request =>
    obtain ⟨rfl, rfl⟩ := answers
    exact Or.inl rfl
  | log | stamp =>
    obtain ⟨_, rfl⟩ := answers
    rfl
  | validate | act | backendAvailable | launch =>
    obtain ⟨may, rfl⟩ := answers
    exact ⟨may, rfl⟩

theorem World.Falters.learns {request : Request} {answer : request.Answer}
    (falters : world.Falters mayAnswer request answer after) :
    (faltering mayAnswer True watch).learns world.store request answer after.store := by
  cases falters with
  | answered answers => exact answers.learns
  | refused request fault => exact Or.inr ⟨trivial, rfl, fault, rfl⟩

/-- What is left of a program heeds what the program heeds. -/
theorem Program.Stumbles.heeds {program rest : Program α} {aim : α → Store → Prop}
    (stumbles : program.Stumbles mayAnswer world rest after)
    (heeds : program.Heeds (faltering mayAnswer True watch) world.store aim) :
    rest.Heeds (faltering mayAnswer True watch) after.store aim := by
  induction stumbles with
  | here => exact heeds
  | asked falters _ inductionHypothesis =>
    exact inductionHypothesis (heeds.2 _ _ falters.learns)

/-- A job that has come to its end has reached its aim. -/
theorem Program.Stumbles.comes {ε : Type} {job : ExceptT ε Program α} {result : Except ε α}
    {good : α → Store → Prop} {bad : ε → Store → Prop}
    (stumbles : job.run.Stumbles mayAnswer world (.done result) after)
    (heeds : Execution.Heeds (faltering mayAnswer True watch) job world.store good bad) :
    Either good bad result after.store :=
  Program.Stumbles.heeds stumbles heeds

/-- What holds whenever a job asks for something, and when it is done, holds as far as it gets. -/
theorem Program.Stumbles.remains {ε : Type} {job : ExceptT ε Program α} {kept : Store → Prop}
    {rest : Program (Except ε α)} (stumbles : job.run.Stumbles mayAnswer world rest after)
    (heeds : Execution.Heeds (faltering mayAnswer True fun store _ => kept store) job world.store
      (fun _ => kept) fun _ => kept) : kept after.store := by
  have left := Program.Stumbles.heeds stumbles heeds
  cases rest with
  | ask => exact left.1
  | done result =>
    cases result with
    | ok value => exact left
    | error fault => exact left

/-- A program that asks for nothing from outside comes to its end, if it is refused nothing. -/
theorem Program.Heeds.arrives {program : Program α} {aim : α → Store → Prop}
    (heeds : program.Heeds (faltering mayAnswer False fun _ request => request.isOutside = false)
      world.store aim) :
    ∃ result after, program.Stumbles mayAnswer world (.done result) after ∧
      aim result after.store := by
  induction program generalizing world with
  | done result => exact ⟨result, world, .here _ _, heeds⟩
  | ask request next inductionHypothesis =>
    obtain ⟨inside, goesOn⟩ := heeds
    obtain ⟨answer, middle, answers⟩ : ∃ answer middle,
        world.Answers mayAnswer request answer middle := by
      cases request with
      | store => exact ⟨_, _, rfl, rfl⟩
      | log => exact ⟨(), _, default, rfl⟩
      | stamp => exact ⟨World.stampOf 0, _, 0, rfl⟩
      | validate | act | backendAvailable | launch => cases inside
    obtain ⟨result, after, stumbles, reached⟩ :=
      inductionHypothesis answer (goesOn answer middle.store answers.learns)
    exact ⟨result, after, .asked (.answered answers) stumbles, reached⟩

end Soundness

section Requests

variable {mayAnswer : (request : Request) → request.Answer → Prop} {refuses : Prop}
  {watch : Store → Request → Prop} {store after : Store} {bad : EngineFault → Store → Prop}

theorem falters_ask {request : StoreRequest} {result : request.Result}
    {good : request.Result → Store → Prop} (watched : watch store (.store request))
    (answered : store.answer request = (.ok result, after)) (reached : good result after)
    (refused : ∀ fault, refuses → bad fault store) :
    Heeds (faltering mayAnswer refuses watch) (Job.store request) store good bad := by
  refine (heeds_store _).mpr ⟨watched, ?_⟩
  rintro answer last (same | ⟨may, rfl, fault, rfl⟩)
  · obtain ⟨rfl, rfl⟩ := Prod.mk.inj (same.trans answered)
    exact reached
  · exact refused fault may

theorem falters_log {runId : Uuid} {kind : EventKind} {good : Unit → Store → Prop}
    (watched : watch store (.log runId kind)) (reached : good () store) :
    Heeds (faltering mayAnswer refuses watch) (Job.log runId kind) store good bad := by
  refine (heeds_log _ _).mpr ⟨watched, ?_⟩
  rintro _ _ rfl
  exact reached

theorem falters_stamp {good : Stamp → Store → Prop} (watched : watch store .stamp)
    (reached : ∀ stamp, good stamp store) :
    Heeds (faltering mayAnswer refuses watch) Job.stamp store good bad := by
  refine heeds_stamp.mpr ⟨watched, ?_⟩
  rintro stamp _ rfl
  exact reached stamp

theorem falters_now {good : Timestamp → Store → Prop} (watched : watch store .stamp)
    (reached : ∀ now, good now store) :
    Heeds (faltering mayAnswer refuses watch) Job.now store good bad :=
  (heeds_bind _ _).mpr (falters_stamp watched fun stamp => reached stamp.time)

end Requests

/-! ### Refusals given beforehand -/

/-- Answers the requests of a program in turn, or refuses those to the store for which a fault is
given; gives what is left of the program. -/
def World.stumble {α : Type} (surroundings : Surroundings) :
    List (Option EngineFault) → Program α → World → Program α × World
  | refusal? :: later, .ask request next, world =>
    match request, next, refusal? with
    | .store _, next, some fault => stumble surroundings later (next (.error fault)) world
    | request, next, _ =>
      let (answer, after) := (answer surroundings request).run world
      stumble surroundings later (next answer) after
  | _, program, world => (program, world)

theorem World.stumbles_stumble {α : Type} (surroundings : Surroundings)
    (refusals : List (Option EngineFault)) (program : Program α) (world : World) :
    program.Stumbles surroundings.answers world (stumble surroundings refusals program world).1
      (stumble surroundings refusals program world).2 := by
  induction refusals generalizing program world with
  | nil => cases program <;> exact .here _ _
  | cons refusal? later inductionHypothesis =>
    cases program with
    | done result => exact .here _ _
    | ask request next =>
      have answered := World.answers_answer surroundings world request
      cases request with
      | store request =>
        cases refusal? with
        | some fault => exact .asked (.refused request fault) (inductionHypothesis _ _)
        | none => exact .asked (.answered answered) (inductionHypothesis _ _)
      | log | stamp | validate | act | backendAvailable | launch =>
        exact .asked (.answered answered) (inductionHypothesis _ _)

end Vetting.Execution
