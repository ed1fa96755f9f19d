import Vetting.Proofs.Run.Judgement
import Vetting.Proofs.Run.Tending

/-!
Contract: taking the steps of a run that are to come, each of them for the first time.

Owns:
- `Judge.Decides`: new steps come to what a judge says, whatever identifiers they have;
- `Taken`: how far a run has come with its steps by a judge, and that its reports are those of
  the course of that judge;
- executing a run from the first step that has not begun.

Does not own: steps that are taken again (`Vetting.Proofs.Run.Driving`), and what callbacks make
of a step that waits (`Vetting.Proofs.Run.Calling`).

There are two judges here.  The first one decides about steps as they begin; the other one has taken
in what callbacks have reported so far, and agrees with the first one about the steps to come.
-/

namespace Vetting

open Execution
open Store (Rewrites Ends)

/-- New steps of a run come to what the judge says, apart from facts about jobs. -/
def Judge.Decides (judge : Judge) (mayAnswer : (request : Request) → request.Answer → Prop)
    (equipment : Equipment) (runId : Uuid) (submission : Submission) : Prop :=
  ∀ context earlier conclusion, context.run.id = runId → context.submission = submission →
    context.signals = signalsOf earlier → context.stepRun.output = .empty →
    context.stepRun.attempt = 1 → Concludes mayAnswer equipment context [] conclusion →
    conclusion.erased = (judge earlier context.step).erased

/-- The norm of a judge for steps that are carried out once. -/
def Judge.norm (judge : Judge) : Norm :=
  .judged judge False none (fun _ _ => False) fun _ _ _ => False

theorem StepReport.waiting_congr (step : Step) {output other : StepOutput} (issues : List Issue)
    (same : output.erased = other.erased) :
    StepReport.waiting step output issues = .waiting step other issues := by
  unfold StepOutput.erased at same
  rw [waiting, waiting, same]

/-- How far a run has come with its steps by a judge. -/
inductive Taken (first judge : Judge) (origin : Store) (run : Run) (store : Store) :
    Progress → Prop
  | completed {settled : List StepRun}
      (standing : Standing judge.norm origin run store settled none)
      (whole : settled.length = run.orderedSteps.length) :
    Taken first judge origin run store .completed
  | failed {settled : List StepRun} {stepRun : StepRun} {step : Step} {own error : Option String}
      (standing : Standing judge.norm origin run store settled (some stepRun))
      (isStep : run.orderedSteps[settled.length]? = some step)
      (ended : stepRun.status = .failed)
      (fails : (judge (settled.map store.reportOf) step).Fails step (store.reportOf stepRun) own) :
    Taken first judge origin run store (.failed error)
  /-- A step waits for its job, and nothing is reported of the steps to come. -/
  | pending {settled : List StepRun} {stepRun : StepRun} {done rest : List Step} {step : Step}
      {output : StepOutput} {issues : List Issue}
      (status : run.status = .running) (wanted : run.cancelRequested = false)
      (standing : Standing judge.norm origin run store settled (some stepRun))
      (split : run.orderedSteps = done ++ step :: rest) (atStep : done.length = settled.length)
      (running : stepRun.status = .running)
      (pending : judge (settled.map store.reportOf) step = .pending output issues)
      (waiting : store.reportOf stepRun = .waiting step output issues)
      (agrees : ∀ earlier, ∀ later ∈ rest, judge earlier later = first earlier later) :
    Taken first judge origin run store .pending

/-- A step at work has been broken off by a fault, as the judge has it. -/
inductive BrokenOff (judge : Judge) (origin : Store) (run : Run) (store : Store) :
    Interruption → Prop
  | intro {settled : List StepRun} {stepRun : StepRun} {step : Step} {fault : EngineFault}
      (standing : Standing judge.norm origin run store settled (some stepRun))
      (isStep : run.orderedSteps[settled.length]? = some step)
      (running : stepRun.status = .running) (empty : stepRun.output = .empty)
      (unrecorded : store.issuesOf stepRun.id = [])
      (faulted : judge (settled.map store.reportOf) step = .faulted fault) :
    BrokenOff judge origin run store ⟨fault, some stepRun⟩

/-- A run is due to be executed from the first of the steps that are to come. -/
structure Due (first judge : Judge) (origin : Store) (run : Run) (store : Store)
    (settled : List StepRun) (done rest : List Step) (resumeFrom : Option Int) : Prop where
  standing : Standing judge.norm origin run store settled none
  status : run.status = statusFor resumeFrom
  wanted : run.cancelRequested = false
  split : run.orderedSteps = done ++ rest
  atStep : done.length = settled.length
  areNext : run.orderedSteps.filter (fun step => resumeFrom.getD leastOrder ≤ step.order) = rest
  agrees : ∀ earlier, ∀ later ∈ rest, judge earlier later = first earlier later

/-! ### The reports of a run -/

section Reports

variable {first judge : Judge} {origin store : Store} {run : Run} {progress : Progress}

/-- The reports of a run are those of the course that its judge gives it. -/
theorem Taken.reports (taken : Taken first judge origin run store progress) :
    (store.stepRunsOf run.id).map store.reportOf = (course judge [] run.orderedSteps).reports := by
  cases taken with
  | completed standing whole =>
    rw [course_of_follows_whole standing.follows (by simpa using whole), standing.begun,
      Option.toList_none, List.append_nil]
  | failed standing isStep ended fails =>
    rw [course_of_follows_failing standing.follows (by simpa using isStep) fails, standing.begun,
      Option.toList_some, List.map_append]
    rfl
  | pending _ _ standing split atStep _ pending waiting =>
    rw [course_of_follows_pending standing.follows (by simp [split, ← atStep]) pending,
      standing.begun, Option.toList_some, List.map_append, ← waiting]
    rfl

theorem Taken.stands (taken : Taken first judge origin run store progress) :
    ∃ settled current, Standing judge.norm origin run store settled current := by
  cases taken with
  | completed standing | failed standing => exact ⟨_, _, standing⟩
  | pending _ _ standing => exact ⟨_, _, standing⟩

theorem Taken.rebase (taken : Taken first judge origin run store progress) :
    Taken first judge store run store progress := by
  cases taken with
  | completed standing whole => exact .completed standing.rebase whole
  | failed standing isStep ended fails => exact .failed standing.rebase isStep ended fails
  | pending status wanted standing split atStep running pending waiting agrees =>
    exact .pending status wanted standing.rebase split atStep running pending waiting agrees

theorem Taken.submissions (taken : Taken first judge origin run store progress) :
    store.submissions = origin.submissions := by
  obtain ⟨_, _, standing⟩ := taken.stands
  exact standing.elsewhere.submissions

end Reports

namespace Execution

theorem watches_unwatched (mayAnswer : (request : Request) → request.Answer → Prop) (world : World)
    (request : Request) (_ : Store.Any world.store) :
    (Regime.unwatched mayAnswer).watch world request :=
  trivial

variable {first judge : Judge} {mayAnswer : (request : Request) → request.Answer → Prop}
  {origin : Store} {run : Run} {world : World} {settled : List StepRun} {equipment : Equipment}
  {submission : Submission} {done rest : List Step} {step : Step}

/-! ### Carrying out a step -/

/-- The step that has begun is carried out as the judge has it. -/
theorem ensures_carryOut_judged {stepRun : StepRun}
    (standing : Standing judge.norm origin run world.store settled (some stepRun))
    (ordered : run.WellOrdered) (status : run.status = .running)
    (wanted : run.cancelRequested = false)
    (split : run.orderedSteps = done ++ step :: rest) (atStep : done.length = settled.length)
    (decides : first.Decides mayAnswer equipment run.id submission)
    (agrees : ∀ earlier, ∀ later ∈ step :: rest, judge earlier later = first earlier later)
    (running : stepRun.status = .running) (clear : stepRun.error = none)
    (empty : stepRun.output = .empty) (once : stepRun.attempt = 1)
    (unrecorded : world.store.issuesOf stepRun.id = [])
    {good : Option Progress → World → Prop} {bad : Interruption → World → Prop}
    (passes : ∀ ended after, Standing judge.norm origin run after.store (settled ++ [ended]) none →
      good none after)
    (halts : ∀ progress after, Taken first judge origin run after.store progress →
      good (some progress) after)
    (breaks : ∀ interruption after, BrokenOff judge origin run after.store interruption →
      bad interruption after) :
    Ensures (.unwatched mayAnswer) (during (some stepRun) do
      let signals ← collectSignals run.id step.order
      return progressAfter
        (← dispatch equipment ⟨run, step, stepRun, submission, signals⟩)) world good bad := by
  have isStep : run.orderedSteps[settled.length]? = some step := by simp [split, ← atStep]
  have place : stepRun.place = step.place := standing.place_at split (by simp [atStep])
  have work : AtWork (.unwatched mayAnswer) Store.Any world.store stepRun :=
    atWork_of_held (fun _ _ => trivial) standing.writable standing.held_current.1
  rw [ensures_during, ensures_bind]
  refine ensures_collectSignals work _ _ ?_
  rw [standing.signalsBefore ordered split atStep, ensures_bind]
  simp only [ensures_pure]
  have judged : ∀ conclusion, Concludes mayAnswer equipment
      ⟨run, step, stepRun, submission, signalsOf (settled.map world.store.reportOf)⟩
      (world.store.issuesOf stepRun.id) conclusion → conclusion.Decided ∧
      conclusion.erased = (judge (settled.map world.store.reportOf) step).erased := by
    rw [unrecorded]
    intro conclusion concluded
    rw [agrees _ step List.mem_cons_self]
    exact ⟨concluded.decided, decides _ _ _ rfl rfl rfl empty once concluded⟩
  refine ensures_dispatch work running (fun _ _ _ _ _ => trivial) judged ⟨?_, ?_, ?_⟩
  · rintro verdict ended after ⟨decided, same⟩ ends
    have sameStatus := ends.status
    obtain ⟨later, reports, report⟩ := standing.ends ends place
    obtain ⟨whenPassed, whenFailed⟩ : judge.norm.Allows _ step .empty (.ended verdict) :=
      Norm.judged_allows same decided (fun _ _ => Conclusion.noConfusion) fun _ _ => rfl
    rw [← reports, ← report] at whenPassed whenFailed
    refine ⟨trivial, ?_⟩
    rcases decided verdict rfl with hasPassed | hasFailed
    · have settles := later.settle split atStep (sameStatus.trans hasPassed) (whenPassed hasPassed)
      rw [progressAfter_of_passed (sameStatus.trans hasPassed)]
      exact passes ended after settles
    · obtain ⟨own, fails, _⟩ := whenFailed hasFailed
      rw [progressAfter_of_failed (sameStatus.trans hasFailed)]
      exact halts _ _ (.failed later isStep (sameStatus.trans hasFailed) fails)
  · rintro output issues findings after ⟨_, same⟩ recorded rewrites
    have later := standing.rewrite rewrites rfl rfl rfl
    have reports := standing.reports_settled rewrites rfl
    have report := reportOf_leaving rewrites place running clear
    refine ⟨trivial, ?_⟩
    rw [progressAfter_of_running ((stepRun.leaving_status output).trans running)]
    rw [← reports] at same
    obtain ⟨left, isJudged, sameOutput⟩ := Conclusion.exists_pending_of_erased same
    refine halts _ _ (.pending status wanted later split atStep running isJudged ?_
      fun earlier other member => agrees earlier other (List.mem_cons_of_mem _ member))
    rw [report, recorded]
    exact StepReport.waiting_congr step issues sameOutput
  · rintro fault after ⟨_, same⟩ unchanged
    rw [← unchanged] at standing unrecorded same
    exact breaks _ _ (.intro standing isStep running empty unrecorded
      (Conclusion.eq_faulted_of_erased same))

/-! ### Taking the steps to come -/

/-- The next step begins and is carried out. -/
theorem ensures_takeStep_judged
    (standing : Standing judge.norm origin run world.store settled none)
    (ordered : run.WellOrdered) (status : run.status = .running)
    (wanted : run.cancelRequested = false)
    (split : run.orderedSteps = done ++ step :: rest) (atStep : done.length = settled.length)
    (decides : first.Decides mayAnswer equipment run.id submission)
    (agrees : ∀ earlier, ∀ later ∈ step :: rest, judge earlier later = first earlier later)
    {good : Option Progress → World → Prop} {bad : Interruption → World → Prop}
    (passes : ∀ ended after, Standing judge.norm origin run after.store (settled ++ [ended]) none →
      good none after)
    (halts : ∀ progress after, Taken first judge origin run after.store progress →
      good (some progress) after)
    (breaks : ∀ interruption after, BrokenOff judge origin run after.store interruption →
      bad interruption after) :
    Ensures (.unwatched mayAnswer) (takeStep equipment run submission step) world good bad := by
  simp only [takeStep, ensures_bind, ensures_during]
  refine ensures_beginStep_created (watches_unwatched mayAnswer) trivial
    (standing.stepRunOf?_next ordered split atStep) fun now => ⟨trivial, fun log clock => ?_⟩
  have begins : Standing judge.norm origin run
      (world.store.putStepRun (.begun world.store.freshId run.id step now)) settled
      (some (.begun world.store.freshId run.id step now)) :=
    standing.begin ordered split atStep rfl rfl rfl
  have unrecorded : (world.store.putStepRun
      (.begun world.store.freshId run.id step now)).issuesOf world.store.freshId = [] := by
    change world.store.issuesOf world.store.freshId = []
    rw [Store.issuesOf, standing.coherent.recorded _ (Store.get?_freshId _)]
    rfl
  simp only [if_true]
  exact ensures_carryOut_judged begins ordered status wanted split atStep decides agrees rfl rfl rfl
    rfl unrecorded passes halts breaks

/-- The steps to come are taken one after the other as the judge has it. -/
theorem ensures_takeSteps_judged
    (standing : Standing judge.norm origin run world.store settled none)
    (ordered : run.WellOrdered) (status : run.status = .running)
    (wanted : run.cancelRequested = false)
    (split : run.orderedSteps = done ++ rest) (atStep : done.length = settled.length)
    (decides : first.Decides mayAnswer equipment run.id submission)
    (agrees : ∀ earlier, ∀ later ∈ rest, judge earlier later = first earlier later) :
    Ensures (.unwatched mayAnswer) (takeSteps equipment run submission rest) world
      (fun progress after => Taken first judge origin run after.store progress)
      fun interruption after => BrokenOff judge origin run after.store interruption := by
  induction rest generalizing world settled done with
  | nil =>
    rw [takeSteps, ensures_pure]
    exact .completed standing (by rw [split, List.append_nil, atStep])
  | cons step rest inductionHypothesis =>
    simp only [takeSteps, ensures_bind, ensures_during]
    refine (ensures_ask (Store.answer_cancelFlag standing.held)).mpr ⟨trivial, ?_⟩
    simp only [wanted, Bool.false_eq_true, if_false, ensures_bind]
    refine ensures_takeStep_judged standing ordered status wanted split atStep decides agrees ?_
      (fun _ _ taken => taken) fun _ _ broken => broken
    intro ended after settles
    have splitAfter : run.orderedSteps = (done ++ [step]) ++ rest := by
      rw [split, List.append_assoc]
      rfl
    refine inductionHypothesis settles splitAfter ?_ fun earlier later member =>
      agrees earlier later (List.mem_cons_of_mem _ member)
    rw [List.length_append, List.length_append, atStep]
    rfl

/-! ### Executing a run -/

/-- What is left of a run that has been executed. -/
def Rests (first judge : Judge) (origin : Store) (run : Run) (store : Store) : Prop :=
  ∃ later progress, run.Keeps later ∧ Taken first judge origin later store progress

/-- Closing a run does not change how far it has come. -/
theorem ensures_closeRun_judged {origin : Store} {entered : Run} {progress : Progress}
    (keeps : run.Keeps entered) (taken : Taken first judge origin entered world.store progress)
    (status : entered.status = .running) (stopped : progress ≠ .pending) {closing : RunStatus}
    (begun : closing ≠ .pending) (error : Option String) :
    Ensures (.unwatched mayAnswer) (closeRun entered.id closing error) world
      (fun _ after => Rests first judge origin run after.store) fun _ _ => False := by
  have isOpen : entered.status.isTerminal = false := by
    rw [status]
    rfl
  have closes : ∀ {settled current},
      Standing judge.norm origin entered world.store settled current →
      (∀ closed, entered.Closes closing error closed →
        Taken first judge origin closed (world.store.withRun closed) progress) →
      Ensures (.unwatched mayAnswer) (closeRun entered.id closing error) world
        (fun _ after => Rests first judge origin run after.store) fun _ _ => False := by
    intro settled current standing stays
    refine ensures_closeRun (watches_unwatched mayAnswer) standing.held trivial
      standing.writable isOpen begun fun closed closes => ⟨trivial, fun _ log clock => ?_⟩
    exact ⟨closed, progress, keeps.trans closes.toKeeps, stays closed closes⟩
  cases taken with
  | completed standing whole =>
    refine closes standing fun closed closes => .completed (standing.close closes) ?_
    rw [closes.orderedSteps]
    exact whole
  | failed standing isStep ended fails =>
    refine closes standing fun closed closes => .failed (standing.close closes) ?_ ended fails
    rw [closes.orderedSteps]
    exact isStep
  | pending => exact absurd rfl stopped

/-- A fault makes the step at work fail, and the run with it. -/
theorem ensures_failRun_judged {origin : Store} {entered : Run} {interruption : Interruption}
    (keeps : run.Keeps entered) (status : entered.status = .running)
    (broken : BrokenOff judge origin entered world.store interruption) :
    Ensures (.unwatched mayAnswer) (failRun entered.id interruption) world
      (fun _ after => Rests first judge origin run after.store) fun _ _ => False := by
  cases broken with
  | @intro settled stepRun step fault standing isStep running empty unrecorded faulted =>
    obtain ⟨done, rest, split, atStep⟩ := exists_split_of_getElem? isStep
    have place : stepRun.place = step.place := standing.place_at split (by simp [atStep])
    have work : AtWork (.unwatched mayAnswer) Store.Any world.store stepRun :=
      atWork_of_held (fun _ _ => trivial) standing.writable standing.held_current.1
    simp only [failRun, ensures_bind, ensures_tryCatch]
    apply ensures_failStep work running fault
    intro ended after ends
    refine ⟨trivial, ?_⟩
    rw [unrecorded, empty] at ends
    have hasFailed : ended.status = .failed := ends.status
    obtain ⟨stands, reports, report⟩ := standing.ends ends place
    have fails : (judge (settled.map after.store.reportOf) step).Fails step
        (after.store.reportOf ended) (some genericFailure) := by
      rw [reports, report, faulted]
      exact .faulted
    have taken : Taken first judge origin entered after.store (.failed none) :=
      .failed stands isStep hasFailed fails
    exact ensures_closeRun_judged keeps taken status (by rintro ⟨⟩) (by rintro ⟨⟩) _

/-- A run that is due is entered, and its steps may be taken. -/
theorem ensures_enterRun_due {norm : Norm} {resumeFrom : Option Int}
    (standing : Standing norm origin run world.store settled none)
    (due : run.status = statusFor resumeFrom) :
    Ensures (.unwatched mayAnswer) (enterRun run.id resumeFrom) world
      (fun outcome? after => outcome? = none ∧
        ∃ entered, Entered norm origin run settled none entered after.store)
      fun _ _ => False := by
  cases resumeFrom with
  | none =>
    refine ensures_enterRun_start (watches_unwatched mayAnswer) standing.held trivial
      due fun now => ⟨trivial, fun log clock =>
        ⟨rfl, _, keeps_started run now, rfl, rfl, ?_, trivial⟩⟩
    exact standing.withRun (keeps_started run now).id (keeps_started run now).steps
  | some order =>
    exact ensures_enterRun_resume (watches_unwatched mayAnswer) standing.held trivial
      due order fun log clock => ⟨rfl, run, .refl run, rfl, due, standing, trivial⟩

/-- A run that is due is executed as the judge has it. -/
theorem ensures_execute_judged {resumeFrom : Option Int}
    (due : Due first judge origin run world.store settled done rest resumeFrom)
    (ordered : run.WellOrdered)
    (submitted : origin.submissions.get? run.submissionId = some submission)
    (decides : first.Decides mayAnswer equipment run.id submission) :
    Ensures (.unwatched mayAnswer) (execute equipment run.id resumeFrom) world
      (fun _ after => Rests first judge origin run after.store) fun _ _ => False := by
  obtain ⟨standing, isDue, wanted, split, atStep, areNext, agrees⟩ := due
  rw [execute, ensures_bind]
  refine (ensures_enterRun_due standing isDue).imp ?_ fun _ _ impossible => impossible
  rintro _ middle ⟨rfl, entered, keeps, flag, status, stands, _⟩
  rw [← keeps.submissionId] at submitted
  rw [← keeps.orderedSteps] at split areNext
  rw [← keeps.id] at decides ⊢
  rw [ensures_bind]
  refine (ensures_ask (Store.answer_run stands.held)).mpr ⟨trivial, ?_⟩
  rw [ensures_bind, ensures_lift, program_ensures_run, drive, ensures_bind, ensures_during]
  have answered : middle.store.answer (.submission entered.submissionId) =
      (.ok submission, middle.store) := by
    rw [Store.answer, stands.elsewhere.submissions, submitted]
  refine (ensures_ask answered).mpr ⟨trivial, ?_⟩
  rw [areNext]
  refine (ensures_takeSteps_judged stands (keeps.wellOrdered ordered) status (flag.trans wanted)
    split atStep decides agrees).imp ?_ ?_
  · intro progress after taken
    cases progress with
    | completed | failed error =>
      exact ensures_closeRun_judged keeps taken status (by rintro ⟨⟩) (by rintro ⟨⟩) _
    | pending =>
      cases taken with
      | pending status wanted standing split atStep running pending waiting agrees =>
        refine ensures_currentOutcome (watches_unwatched mayAnswer) standing.held trivial ?_
        exact ⟨entered, .pending, keeps,
          .pending status wanted standing split atStep running pending waiting agrees⟩
    | canceled | yielded => cases taken
  · exact fun interruption after broken => ensures_failRun_judged keeps status broken

end Execution

end Vetting
