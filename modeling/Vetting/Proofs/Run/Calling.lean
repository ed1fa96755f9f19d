import Vetting.Proofs.Run.History
import Vetting.Proofs.Run.Informed
import Vetting.Proofs.Run.Taking

/-!
Contract: runs that are executed, and called about the jobs that their steps wait for.

Owns:
- `World.called`: a callback, and an execution from the order that it offers;
- `Called`: a run is executed, and called about steps at work, one after the other;
- that the reports of such a run are those of the course of a judge that the callbacks inform.

Does not own: which judge that is (`Vetting.Proofs.Run.Precedence`).
-/

namespace Vetting

open Execution
open Store (Rewrites Ends)

/-- The world after a callback, and after an execution from the order that it offers. -/
def Execution.World.called (surroundings : Surroundings) (equipment : Equipment)
    (runId stepRunId : Uuid) (envelope : Envelope) (key? : Option String) (world : World) : World :=
  let (result, after) :=
    runJob surroundings (completeCallback equipment stepRunId envelope key?) world
  match result.toOption.bind CallbackOutcome.resumeFrom with
  | some order => (runJob surroundings (execute equipment runId (some order)) after).2
  | none => after

/-- A run is executed, and then called about steps at work, with all callbacks so far.  A callback
comes with the token of the job, if no callback has come with that, or without one. -/
inductive Called (surroundings : Surroundings) (equipment : Equipment) (runId : Uuid)
    (origin : World) : List Call → World → Prop
  | begun : Called surroundings equipment runId origin []
      (World.runJob surroundings (execute equipment runId none) origin).2
  | answered {calls : List Call} {world : World} {stepRun : StepRun} {key? : Option String}
      (earlier : Called surroundings equipment runId origin calls world) (envelope : Envelope)
      (member : stepRun ∈ world.store.stepRunsOf runId) (running : stepRun.status = .running)
      (token : key? = none ∨ key? = stepRun.output.jobKey?)
      (unused : ∀ key, key? = some key → key ∉ world.store.receipts) :
    Called surroundings equipment runId origin (calls ++ [⟨stepRun.stepKey, envelope⟩])
      (world.called surroundings equipment runId stepRun.id envelope key?)

theorem Execution.World.succeeds_runJob {α : Type} (surroundings : Surroundings) {job : Job α}
    {world : World} {good : α → World → Prop}
    (ensures : Ensures (.unwatched surroundings.answers) job world good fun _ _ => False) :
    ∃ value, (runJob surroundings job world).1 = .ok value ∧
      good value (runJob surroundings job world).2 := by
  obtain ⟨_, runs⟩ := runs_runJob surroundings job world
  exact runs.succeeds ensures

/-! ### Another judge -/

theorem Norm.Follows.imp {norm other : Norm} {earlier : List StepReport} {done rest : List Step}
    {reports : List StepReport} (follows : norm.Follows earlier (done ++ rest) reports)
    (atStep : done.length = reports.length)
    (implies : ∀ earlier report, ∀ step ∈ done,
      norm.passes earlier step report → other.passes earlier step report) :
    other.Follows earlier (done ++ rest) reports := by
  induction reports generalizing earlier done with
  | nil => trivial
  | cons report reports inductionHypothesis =>
    cases done with
    | nil => cases atStep
    | cons step done =>
      refine ⟨implies _ _ step List.mem_cons_self follows.1, ?_⟩
      exact inductionHypothesis follows.2 (Nat.succ.inj atStep) fun _ _ later member =>
        implies _ _ later (List.mem_cons_of_mem _ member)

/-- A run stands with another judge as it does with one that agrees about the settled steps. -/
theorem Standing.rejudge {judge other : Judge} {origin store : Store} {run : Run}
    {settled : List StepRun} {current : Option StepRun} {done rest : List Step}
    (standing : Standing judge.norm origin run store settled current)
    (split : run.orderedSteps = done ++ rest) (atStep : done.length = settled.length)
    (same : ∀ earlier, ∀ step ∈ done, judge earlier step = other earlier step) :
    Standing other.norm origin run store settled current := by
  refine { standing with follows := ?_, numbered := fun _ counted => nomatch counted }
  have follows := standing.follows
  rw [split] at follows ⊢
  refine follows.imp (by rw [atStep, List.length_map]) fun earlier report step member passes => ?_
  change (other earlier step).Passes step report
  rw [← same earlier step member]
  exact passes

/-- Another step than one of a run has another key. -/
theorem Run.WellOrdered.key_ne {run : Run} (ordered : run.WellOrdered) {done rest : List Step}
    {step : Step} (split : run.orderedSteps = done ++ step :: rest) {other : Step}
    (member : other ∈ done ++ rest) : step.key ≠ other.key := by
  have keys := ordered.keys_orderedSteps
  rw [split, (List.perm_middle.map Step.key).nodup_iff, List.map_cons, List.nodup_cons] at keys
  exact fun same => keys.1 (same ▸ List.mem_map_of_mem member)

/-! ### What a callback makes of a step that waits -/

section Answering

variable {first : Judge} {equipment : Equipment} {calls : List Call} {origin store after : Store}
  {run : Run} {progress : Progress} {stepRun : StepRun} {envelope : Envelope}
  {key? : Option String} {outcome : CallbackOutcome}

/-- The judge that a callback informs says what the callback makes of the step that waits. -/
theorem Judge.informed_says (call : Call) {earlier : List StepReport} {step : Step}
    {left output : StepOutput} {issues : List Issue} {verdict : Verdict} {error : Option String}
    (jobs : first.WaitsForJobs equipment)
    (pending : first.informed equipment calls earlier step = .pending output issues)
    (key : call.stepKey = step.key) (same : left.erased = output.erased)
    (settles : (Conclusion.ofReport equipment step left issues call.envelope
      (signalsOf earlier)).Settles issues left verdict error) :
    (verdict.status = .passed →
      (first.informed equipment (calls ++ [call]) earlier step).Passes step (verdict.report step)) ∧
    (verdict.status = .failed → ∃ own,
      (first.informed equipment (calls ++ [call]) earlier step).Fails step (verdict.report step)
        own) := by
  obtain ⟨waits, unreported⟩ := informed_eq_pending pending
  obtain ⟨validator, ruleset, external, isJob⟩ := jobs _ _ _ _ waits
  have informed : first.informed equipment (calls ++ [call]) earlier step =
      .ended (.ofEnvelope equipment.checker validator ruleset external output issues call.envelope
        (signalsOf earlier)) := by
    rw [Judge.informed, waits, reported?_new key unreported]
    exact Conclusion.ofReport_of_isJob isJob _ _ _ _
  rw [Conclusion.ofReport_of_isJob isJob] at settles
  cases settles with
  | ended =>
    have allows : (first.informed equipment (calls ++ [call])).norm.Allows earlier step .empty
        (.ended (.ofEnvelope equipment.checker validator ruleset external left issues call.envelope
          (signalsOf earlier))) := by
      refine Norm.judged_allows ?_ ?_ (fun _ _ => Conclusion.noConfusion) fun _ _ => rfl
      · rw [informed]
        exact Conclusion.erased_ofEnvelope _ _ _ _ _ _ _ same
      · rintro verdict ⟨⟩
        exact verdictStatus_decided _
    exact ⟨allows.1, fun failed => (allows.2 failed).imp fun _ both => both.1⟩

/-- A callback for the last step of a run finds the signals of the settled ones. -/
theorem Standing.callbackConclusion_eq {norm : Norm} {settled : List StepRun}
    {done rest : List Step} {step : Step}
    (standing : Standing norm origin run store settled (some stepRun)) (ordered : run.WellOrdered)
    (split : run.orderedSteps = done ++ step :: rest) (atStep : done.length = settled.length) :
    callbackConclusion equipment store run stepRun envelope =
      .ofReport equipment step stepRun.output (store.issuesOf stepRun.id) envelope
        (signalsOf (settled.map store.reportOf)) := by
  have place : stepRun.place = step.place := standing.place_at split (by simp [atStep])
  have key : stepRun.stepKey = step.key := congrArg Prod.fst place
  rw [callbackConclusion, key, ordered.stepByKey? (by simp [split]), Conclusion.ofCallback_some,
    standing.signalsBefore ordered split atStep]

/-- A callback for a step at work settles it, and its run goes on or fails, as the judge has it that
the callback informs. -/
theorem Taken.answered
    (taken : Taken first (first.informed equipment calls) origin run store progress)
    (ordered : run.WellOrdered) (jobs : first.WaitsForJobs equipment)
    (held : store.stepRuns.get? stepRun.id = some stepRun) (ofRun : stepRun.runId = run.id)
    (running : stepRun.status = .running) {receipts : List String}
    (applied : Applied equipment (store.withReceipts receipts) run stepRun envelope outcome after) :
    after.submissions = store.submissions ∧
    ((outcome.resumeFrom = none ∧ Rests first
      (first.informed equipment (calls ++ [⟨stepRun.stepKey, envelope⟩])) after run after) ∨
    ∃ order settled done rest, outcome.resumeFrom = some order ∧ Due first
      (first.informed equipment (calls ++ [⟨stepRun.stepKey, envelope⟩])) after run after settled
      done rest (some order)) := by
  have isOpen : stepRun.status.isTerminal = false := by
    rw [running]
    rfl
  cases taken with
  | completed standing => cases standing.current_of_running held ofRun isOpen
  | failed standing _ ended =>
    cases standing.current_of_running held ofRun isOpen
    rw [ended] at running
    cases running
  | @pending settled last done rest step output issues status wanted standing split atStep _ pending
      waiting agrees =>
    cases standing.current_of_running held ofRun isOpen
    have place : stepRun.place = step.place := standing.place_at split (by simp [atStep])
    have key : stepRun.stepKey = step.key := congrArg Prod.fst place
    have order : stepRun.stepOrder = step.order := congrArg Prod.snd place
    obtain ⟨judge, isJudge⟩ : ∃ judge,
      judge = first.informed equipment (calls ++ [⟨stepRun.stepKey, envelope⟩]) := ⟨_, rfl⟩
    rw [← isJudge]
    have others : ∀ earlier, ∀ other ∈ done ++ rest,
        first.informed equipment calls earlier other = judge earlier other := by
      intro earlier other member
      rw [isJudge]
      refine Judge.informed_congr (reported?_other ?_).symm
      rw [key]
      exact ordered.key_ne split member
    have standing : Standing judge.norm _ run _ settled (some stepRun) :=
      (standing.withReceipts receipts).rejudge split atStep
        fun earlier other member => others earlier other (List.mem_append_left _ member)
    obtain ⟨verdict, error, ended, middle, settles, ends, outcomes⟩ :=
      applied.of_open isOpen (by rw [status]; rfl)
    rw [standing.callbackConclusion_eq ordered split atStep,
      show (store.withReceipts receipts).issuesOf stepRun.id = issues from
        congrArg StepReport.issues waiting] at settles
    have sameOutput : stepRun.output.erased = output.erased := congrArg StepReport.output waiting
    obtain ⟨whenPassed, whenFailed⟩ := Judge.informed_says ⟨stepRun.stepKey, envelope⟩ jobs pending
      key sameOutput settles
    have sameStatus := ends.status
    obtain ⟨stands, sameReports, report⟩ := standing.ends ends place
    have reports : settled.map middle.reportOf = settled.map store.reportOf := sameReports
    rw [← isJudge, ← reports, ← report] at whenPassed whenFailed
    obtain ⟨_, _, rewrites⟩ := ends.rewrites
    have submissions : middle.submissions = store.submissions := rewrites.submissions
    rcases outcomes with ⟨hasPassed, rfl, resumes⟩ | ⟨hasFailed, resumes, closed, closes, rfl⟩
    · have settles := stands.settle split atStep (sameStatus.trans hasPassed) (whenPassed hasPassed)
      refine ⟨submissions, Or.inr ⟨_, _, done ++ [step], rest, resumes, settles.rebase, status,
        wanted, by simp [split], by simp [atStep], ?_, fun earlier later member => ?_⟩⟩
      · rw [order]
        exact ordered.filter_resumePoint split
      · rw [← others earlier later (List.mem_append_right _ member)]
        exact agrees earlier later member
    · obtain ⟨own, fails⟩ := whenFailed hasFailed
      have isStep : closed.orderedSteps[settled.length]? = some step := by
        rw [closes.orderedSteps]
        simp [split, ← atStep]
      exact ⟨submissions, Or.inl ⟨resumes, closed, .failed error, closes.toKeeps,
        .failed (stands.close closes).rebase isStep (sameStatus.trans hasFailed) fails⟩⟩

end Answering

/-! ### Runs that are called -/

section Called

variable {first : Judge} {surroundings : Surroundings} {equipment : Equipment}
  {submission : Submission} {run : Run} {origin world : World} {calls : List Call}

/-- How a run stands that has been executed: it has its submission, and its steps have been taken by
a judge. -/
structure Travels (first judge : Judge) (submission : Submission) (run : Run) (store : Store) :
    Prop where
  submitted : store.submissions.get? run.submissionId = some submission
  rests : Rests first judge store run store

theorem Execution.Rests.travels {first judge : Judge} {origin store : Store}
    (rests : Rests first judge origin run store)
    (submitted : origin.submissions.get? run.submissionId = some submission) :
    Travels first judge submission run store := by
  obtain ⟨later, progress, keeps, taken⟩ := rests
  refine ⟨?_, later, progress, keeps, taken.rebase⟩
  rw [taken.submissions]
  exact submitted

/-- A run that is due is executed in a world, as the judge has it. -/
theorem Due.travels {judge : Judge} {settled : List StepRun} {done rest : List Step}
    {resumeFrom : Option Int}
    (due : Due first judge world.store run world.store settled done rest resumeFrom)
    (ordered : run.WellOrdered)
    (submitted : world.store.submissions.get? run.submissionId = some submission)
    (decides : first.Decides surroundings.answers equipment run.id submission) :
    Travels first judge submission run
      (World.runJob surroundings (execute equipment run.id resumeFrom) world).2.store := by
  obtain ⟨_, _, rests⟩ :=
    World.succeeds_runJob surroundings (ensures_execute_judged due ordered submitted decides)
  exact rests.travels submitted

theorem Travels.since {judge : Judge} {later : Run} {store : Store} (keeps : run.Keeps later)
    (travels : Travels first judge submission later store) :
    Travels first judge submission run store := by
  obtain ⟨submitted, last, progress, keepsLast, taken⟩ := travels
  exact ⟨keeps.submissionId ▸ submitted, last, progress, keeps.trans keepsLast, taken⟩

/-- A run that has not begun is due. -/
theorem Store.Unbegun.due {store : Store} (unbegun : store.Unbegun run) (ordered : run.WellOrdered)
    (fresh : run.status = .pending) (wanted : run.cancelRequested = false) :
    Due first (first.informed equipment []) store run store [] [] run.orderedSteps none where
  standing := (Calm.fresh ordered unbegun.coherent unbegun.writable unbegun.held fresh
    unbegun.stepRuns rfl).standing
  status := fresh
  wanted := wanted
  split := rfl
  atStep := rfl
  areNext := List.filter_eq_self.mpr fun step member =>
    decide_eq_true (ordered.bounded step (Run.mem_orderedSteps.mp member))
  agrees := fun _ _ _ => Judge.informed_of_unreported rfl

/-- A callback for a step at work, and the execution that it asks for, leave the run as the judge
has it that the callback informs. -/
theorem Travels.called {stepRun : StepRun} {key? : Option String} (ordered : run.WellOrdered)
    (travels : Travels first (first.informed equipment calls) submission run world.store)
    (decides : first.Decides surroundings.answers equipment run.id submission)
    (jobs : first.WaitsForJobs equipment) (envelope : Envelope)
    (member : stepRun ∈ world.store.stepRunsOf run.id) (running : stepRun.status = .running)
    (token : key? = none ∨ key? = stepRun.output.jobKey?)
    (unused : ∀ key, key? = some key → key ∉ world.store.receipts) :
    Travels first (first.informed equipment (calls ++ [⟨stepRun.stepKey, envelope⟩])) submission run
      (world.called surroundings equipment run.id stepRun.id envelope key?).store := by
  obtain ⟨submitted, later, progress, keeps, taken⟩ := travels
  obtain ⟨settled, current, standing⟩ := taken.stands
  rw [← keeps.id] at member decides ⊢
  rw [← keeps.submissionId] at submitted
  replace ordered := keeps.wellOrdered ordered
  obtain ⟨held, ofRun⟩ := standing.coherent.mem_stepRunsOf.mp member
  have heldRun := standing.held
  rw [← ofRun] at heldRun
  obtain ⟨outcome, isOk, answered⟩ := World.succeeds_runJob surroundings
    (ensures_completeCallback (fun _ _ => trivial) standing.writable held rfl heldRun ofRun.symm
      key?)
  refine .since keeps ?_
  unfold World.called
  generalize World.runJob surroundings _ world = reached at isOk answered ⊢
  obtain ⟨result, middle⟩ := reached
  obtain rfl : result = .ok outcome := isOk
  obtain ⟨submissions, ⟨resumes, rests⟩ | ⟨order, _, _, _, resumes, due⟩⟩ :=
    taken.answered ordered jobs held ofRun running (answered.applied_of_own token unused)
  · simp only [Except.toOption, Option.bind_some, resumes]
    exact rests.travels (submissions ▸ submitted)
  · simp only [Except.toOption, Option.bind_some, resumes]
    exact due.travels ordered (submissions ▸ submitted) decides

theorem travels_of_called (ordered : run.WellOrdered) (fresh : run.status = .pending)
    (wanted : run.cancelRequested = false) (unbegun : origin.store.Unbegun run)
    (submitted : origin.store.submissions.get? run.submissionId = some submission)
    (decides : first.Decides surroundings.answers equipment run.id submission)
    (jobs : first.WaitsForJobs equipment)
    (called : Called surroundings equipment run.id origin calls world) :
    Travels first (first.informed equipment calls) submission run world.store := by
  induction called with
  | begun => exact (unbegun.due ordered fresh wanted).travels ordered submitted decides
  | answered _ envelope member running token unused inductionHypothesis =>
    exact inductionHypothesis.called ordered decides jobs envelope member running token unused

/-- The reports of a run are those of the course that its judge gives it. -/
theorem Travels.reports {judge : Judge} {store : Store}
    (travels : Travels first judge submission run store) :
    (store.stepRunsOf run.id).map store.reportOf = (course judge [] run.orderedSteps).reports := by
  obtain ⟨_, later, progress, keeps, taken⟩ := travels
  have reports := taken.reports
  rw [keeps.orderedSteps, keeps.id] at reports
  exact reports

/-- Each step run of a run is one of a step. -/
theorem Travels.exists_step {judge : Judge} {store : Store}
    (travels : Travels first judge submission run store) {stepRun : StepRun}
    (member : stepRun ∈ store.stepRunsOf run.id) :
    ∃ step ∈ run.orderedSteps, stepRun.place = step.place := by
  obtain ⟨_, later, progress, keeps, taken⟩ := travels
  obtain ⟨settled, current, standing⟩ := taken.stands
  rw [← keeps.id, standing.begun] at member
  obtain ⟨step, isStep, place⟩ :=
    List.mem_map.mp (standing.places.subset (List.mem_map_of_mem member))
  rw [keeps.orderedSteps] at isStep
  exact ⟨step, isStep, place.symm⟩

end Called

end Vetting
