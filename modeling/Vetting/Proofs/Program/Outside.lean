import Vetting.Proofs.Program.Regime

/-!
Contract: ways in which a program runs, complete or stopped at a request.

Owns:
- `Program.Runs`: what a program asks for in turn and the world that it leaves, whatever
  plug-ins and the backend answer;
- what a program ensures holds of every way in which it runs;
- running a job with given plug-ins and a given backend is one of its ways, and so is
  stopping it after some requests.

Does not own: what particular programs ensure.
-/

namespace Vetting.Execution

/-- A way in which a program runs: the requests in turn, the result unless it is stopped at a
request, and the world that is left. -/
inductive Program.Runs {α : Type} (mayAnswer : (request : Request) → request.Answer → Prop) :
    Program α → World → List Request → Option α → World → Prop
  | done (result : α) (world : World) : Runs mayAnswer (.done result) world [] (some result) world
  | stopped (request : Request) (next : request.Answer → Program α) (world : World) :
    Runs mayAnswer (.ask request next) world [] none world
  | asked {request : Request} {next : request.Answer → Program α} {world middle after : World}
      {answer : request.Answer} {requests : List Request} {result? : Option α}
      (answers : world.Answers mayAnswer request answer middle)
      (rest : Runs mayAnswer (next answer) middle requests result? after) :
    Runs mayAnswer (.ask request next) world (request :: requests) result? after

/-- A program that is stopped is stopped whatever was to follow. -/
theorem Program.Runs.bind_stopped {α β : Type}
    {mayAnswer : (request : Request) → request.Answer → Prop} {program : Program α}
    {world after : World} {requests : List Request}
    (runs : program.Runs mayAnswer world requests none after) (next : α → Program β) :
    (program >>= next).Runs mayAnswer world requests none after := by
  generalize isNone : (none : Option α) = result? at runs
  induction runs with
  | done => cases isNone
  | stopped request rest world =>
    exact .stopped request (fun answer => rest answer >>= next) world
  | asked answers _ inductionHypothesis => exact .asked answers (inductionHypothesis isNone)

/-- The regime in which everything may be asked for at any time. -/
def Regime.unwatched (mayAnswer : (request : Request) → request.Answer → Prop) : Regime :=
  ⟨mayAnswer, fun _ _ => True⟩

section Soundness

variable {α : Type} {regime : Regime} {world after : World} {requests : List Request}

theorem Program.Runs.reaches {program : Program α} {aim : α → World → Prop} {result : α}
    (runs : program.Runs regime.mayAnswer world requests (some result) after)
    (ensures : Program.Ensures regime program world aim) : aim result after := by
  generalize isResult : some result = result? at runs
  induction runs with
  | done last world =>
    cases isResult
    exact ensures
  | stopped request next world => cases isResult
  | asked answers rest inductionHypothesis =>
    exact inductionHypothesis (ensures.2 _ _ answers) isResult

theorem Program.Runs.succeeds {ε : Type} {job : ExceptT ε Program α} {good : α → World → Prop}
    {mayAnswer : (request : Request) → request.Answer → Prop} {result : Except ε α}
    (runs : job.run.Runs mayAnswer world requests (some result) after)
    (ensures : Execution.Ensures (.unwatched mayAnswer) job world good fun _ _ => False) :
    ∃ value, result = .ok value ∧ good value after := by
  have reached := Runs.reaches runs ensures
  cases result with
  | ok value => exact ⟨value, rfl, reached⟩
  | error fault => exact reached.elim

theorem Program.Runs.fails {ε : Type} {job : ExceptT ε Program α} {bad : ε → World → Prop}
    {mayAnswer : (request : Request) → request.Answer → Prop} {result : Except ε α}
    (runs : job.run.Runs mayAnswer world requests (some result) after)
    (ensures : Execution.Ensures (.unwatched mayAnswer) job world (fun _ _ => False) bad) :
    ∃ fault, result = .error fault ∧ bad fault after := by
  have reached := Runs.reaches runs ensures
  cases result with
  | ok value => exact reached.elim
  | error fault => exact ⟨fault, rfl, reached⟩

/-- Whatever a program asks for, it asks for as the regime wants it. -/
theorem Program.Runs.watched {program : Program α} {aim : α → World → Prop} {result? : Option α}
    (runs : program.Runs regime.mayAnswer world requests result? after)
    (ensures : Program.Ensures regime program world aim) :
    ∀ request ∈ requests, ∃ world, regime.watch world request := by
  induction runs with
  | done last world => exact fun _ member => nomatch member
  | stopped request next world => exact fun _ member => nomatch member
  | asked answers rest inductionHypothesis =>
    intro request member
    rcases List.mem_cons.mp member with rfl | later
    · exact ⟨_, ensures.1⟩
    · exact inductionHypothesis (ensures.2 _ _ answers) request later

/-- Where a program is stopped, it was about to ask for something. -/
theorem Program.Runs.stops {program : Program α} {aim : α → World → Prop}
    (runs : program.Runs regime.mayAnswer world requests none after)
    (ensures : Program.Ensures regime program world aim) : ∃ request, regime.watch after request := by
  generalize isNone : (none : Option α) = result? at runs
  induction runs with
  | done last world => cases isNone
  | stopped request next world => exact ⟨request, ensures.1⟩
  | asked answers rest inductionHypothesis =>
    exact inductionHypothesis (ensures.2 _ _ answers) isNone

theorem Program.Runs.leaves {ε : Type} {job : ExceptT ε Program α} {left : World → Prop}
    {result : Except ε α}
    (runs : job.run.Runs regime.mayAnswer world requests (some result) after)
    (ensures : Execution.Ensures regime job world (fun _ after => left after) fun _ _ => False) :
    left after := by
  have reached := Runs.reaches runs ensures
  cases result with
  | ok value => exact reached
  | error fault => exact reached.elim

/-- What holds whenever a job asks for something, and when it is done, holds wherever it ends. -/
theorem Program.Runs.remains {ε : Type} {job : ExceptT ε Program α} {kept : World → Prop}
    {mayAnswer : (request : Request) → request.Answer → Prop} {result? : Option (Except ε α)}
    (runs : job.run.Runs mayAnswer world requests result? after)
    (ensures : Execution.Ensures ⟨mayAnswer, fun world _ => kept world⟩ job world
      (fun _ after => kept after) fun _ after => kept after) : kept after := by
  cases result? with
  | none =>
    obtain ⟨_, holds⟩ := Runs.stops runs ensures
    exact holds
  | some result =>
    have reached := Runs.reaches runs ensures
    cases result with
    | ok value => exact reached
    | error fault => exact reached

/-- A way in which a program runs is one still if more may be answered. -/
theorem Program.Runs.mono {mayAnswer wider : (request : Request) → request.Answer → Prop}
    {program : Program α} {result? : Option α}
    (runs : program.Runs mayAnswer world requests result? after)
    (widens : ∀ request answer, mayAnswer request answer → wider request answer) :
    program.Runs wider world requests result? after := by
  induction runs with
  | done result world => exact .done result world
  | stopped request next world => exact .stopped request next world
  | @asked request next world middle after answer _ _ answers _ inductionHypothesis =>
    refine .asked ?_ inductionHypothesis
    cases request with
    | store | log | stamp => exact answers
    | validate | act | backendAvailable | launch => exact ⟨widens _ _ answers.1, answers.2⟩

end Soundness

/-- The answers of plug-ins and of a backend that depend only on what they are given. -/
def Surroundings.answers (surroundings : Surroundings) :
    (request : Request) → request.Answer → Prop
  | .validate validator submission, answer => answer = surroundings.validate validator submission
  | .act type context, answer => answer = surroundings.act type context
  | .backendAvailable, answer => answer = surroundings.backendAvailable
  | .launch job, answer => answer = surroundings.launch job
  | .store _, _ | .log _ _, _ | .stamp, _ => True

theorem World.answers_answer (surroundings : Surroundings) (world : World) (request : Request) :
    world.Answers surroundings.answers request ((answer surroundings request).run world).1
      ((answer surroundings request).run world).2 := by
  cases request with
  | store request => exact ⟨rfl, rfl⟩
  | log runId kind => exact ⟨_, rfl⟩
  | stamp => exact ⟨_, rfl⟩
  | validate validator submission => exact ⟨rfl, rfl⟩
  | act type context => exact ⟨rfl, rfl⟩
  | backendAvailable => exact ⟨rfl, rfl⟩
  | launch job => exact ⟨rfl, rfl⟩

theorem World.runs_run {α : Type} (surroundings : Surroundings) (program : Program α)
    (world : World) :
    ∃ requests, program.Runs surroundings.answers world requests
      (some ((program.run (answer surroundings)).run world).1)
      ((program.run (answer surroundings)).run world).2 := by
  induction program generalizing world with
  | done result => exact ⟨[], .done result world⟩
  | ask request next inductionHypothesis =>
    obtain ⟨requests, rest⟩ := inductionHypothesis ((answer surroundings request).run world).1
      ((answer surroundings request).run world).2
    exact ⟨request :: requests, .asked (world.answers_answer surroundings request) rest⟩

theorem World.runs_runJob {α : Type} (surroundings : Surroundings) (job : Job α) (world : World) :
    ∃ requests, Program.Runs surroundings.answers job.run world requests
      (some (runJob surroundings job world).1) (runJob surroundings job world).2 :=
  runs_run surroundings job.run world

/-- The world in which a program is stopped after so many requests, if it asks for more. -/
def World.stopped? {α : Type} (surroundings : Surroundings) :
    Nat → Program α → World → Option World
  | 0, .ask _ _, world => some world
  | count + 1, .ask request next, world =>
    let (answer, after) := (answer surroundings request).run world
    stopped? surroundings count (next answer) after
  | _, .done _, _ => none

theorem World.runs_stopped {α : Type} (surroundings : Surroundings) {count : Nat}
    {program : Program α} {world after : World}
    (isStopped : stopped? surroundings count program world = some after) :
    ∃ requests, program.Runs surroundings.answers world requests none after := by
  induction count generalizing program world with
  | zero =>
    cases program with
    | done result => cases isStopped
    | ask request next =>
      cases isStopped
      exact ⟨[], .stopped request next _⟩
  | succ count inductionHypothesis =>
    cases program with
    | done result => cases isStopped
    | ask request next =>
      obtain ⟨requests, rest⟩ := inductionHypothesis isStopped
      exact ⟨request :: requests, .asked (answers_answer surroundings _ request) rest⟩

end Vetting.Execution
