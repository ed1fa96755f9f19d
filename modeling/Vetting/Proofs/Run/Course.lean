import Vetting.Proofs.Run.Tending

/-!
Contract: what the steps of a run come to, as a function of what each of them comes to.

Owns:
- `Judge`: what a step comes to, given the reports of the steps before;
- `course`: the reports, the status and the error that a run ends with;
- the norm of a judge, and that a run which stands by it and is closed has taken its
  course.

Does not own: which judge goes with which plug-ins (`Vetting.Proofs.Run.Judgement`).

A course is computed from reports only.  It knows nothing of identifiers, times, stores
and jobs, nor of when and how often a step has been begun.
-/

namespace Vetting

open Execution

/-- What a step comes to, given the reports of the steps before. -/
abbrev Judge : Type := List StepReport → Step → Conclusion

/-- How the steps of a run end. -/
structure Course where
  reports : List StepReport
  status : RunStatus
  error : Option String

def Course.after (report : StepReport) (rest : Course) : Course :=
  { rest with reports := report :: rest.reports }

def Course.afterAll (reports : List StepReport) (rest : Course) : Course :=
  { rest with reports := reports ++ rest.reports }

def Course.failing (report : StepReport) (error : Option String) : Course :=
  ⟨[report], .failed, error⟩

/-- The course of steps after others with given reports. -/
def course (judge : Judge) : List StepReport → List Step → Course
  | _, [] => ⟨[], .succeeded, none⟩
  | earlier, step :: steps =>
    match judge earlier step with
    | .ended verdict =>
      let report := verdict.report step
      if verdict.status = .passed then .after report (course judge (earlier ++ [report]) steps)
      else .failing report verdict.error
    | .faulted fault =>
      .failing ((Verdict.unexpected [] fault .empty).report step) (some genericFailure)
    | .pending output issues => .failing (.waiting step output issues) none

namespace Execution.Conclusion

/-- A step that comes to a conclusion passes with a report. -/
def Passes (step : Step) (conclusion : Conclusion) (report : StepReport) : Prop :=
  ∃ verdict, conclusion = .ended verdict ∧ verdict.status = .passed ∧ report = verdict.report step

/-- A step that comes to a conclusion fails with a report, and its run with an error. -/
inductive Fails (step : Step) : Conclusion → StepReport → Option String → Prop
  | ended {verdict : Verdict} (failed : verdict.status = .failed) :
    Fails step (.ended verdict) (verdict.report step) verdict.error
  | faulted {fault : EngineFault} : Fails step (.faulted fault)
      ((Verdict.unexpected [] fault .empty).report step) (some genericFailure)

end Execution.Conclusion

section Courses

variable {judge : Judge} {earlier : List StepReport} {step : Step} {steps : List Step}
  {report : StepReport} {error : Option String}

theorem course_passes (passes : (judge earlier step).Passes step report) :
    course judge earlier (step :: steps) =
      .after report (course judge (earlier ++ [report]) steps) := by
  obtain ⟨verdict, concluded, passed, rfl⟩ := passes
  rw [course, concluded]
  exact if_pos passed

theorem course_fails (fails : (judge earlier step).Fails step report error) :
    course judge earlier (step :: steps) = .failing report error := by
  rw [course]
  generalize judge earlier step = conclusion at fails
  cases fails with
  | ended failed =>
    refine if_neg ?_
    rw [failed]
    exact fun no => nomatch no
  | faulted => rfl

end Courses

/-! ### The norm of a judge -/

/-- The norm of a judge.  It minds the errors of runs only if it is exact. -/
def Norm.judged (judge : Judge) (exact : Prop) (numbering : Option Nat)
    (cutOff : Step → StepOutput → Prop) (waits : List StepReport → Step → StepReport → Prop) :
    Norm where
  cutOff := cutOff
  passes := fun earlier step report => (judge earlier step).Passes step report
  fails := fun earlier step report error =>
    ∃ own, (judge earlier step).Fails step report own ∧ (exact → error = own)
  waits := waits
  numbering := numbering

section Judged

variable {judge : Judge} {exact : Prop} {numbering : Option Nat} {cutOff : Step → StepOutput → Prop}
  {waits : List StepReport → Step → StepReport → Prop}

/-- Steps that have passed begin the course. -/
theorem course_of_follows {earlier reports : List StepReport} {done rest : List Step}
    (follows : (Norm.judged judge exact numbering cutOff waits).Follows earlier (done ++ rest)
      reports)
    (atStep : done.length = reports.length) :
    course judge earlier (done ++ rest) =
      .afterAll reports (course judge (earlier ++ reports) rest) := by
  induction reports generalizing earlier done with
  | nil =>
    obtain rfl := List.length_eq_zero_iff.mp atStep
    rw [List.append_nil]
    rfl
  | cons report others inductionHypothesis =>
    cases done with
    | nil => cases atStep
    | cons step done =>
      rw [List.cons_append, course_passes follows.1,
        inductionHypothesis follows.2 (Nat.succ.inj atStep), List.append_assoc]
      rfl

theorem course_of_follows_whole {earlier reports : List StepReport} {steps : List Step}
    (follows : (Norm.judged judge exact numbering cutOff waits).Follows earlier steps reports)
    (whole : reports.length = steps.length) :
    course judge earlier steps = ⟨reports, .succeeded, none⟩ := by
  rw [← List.append_nil steps] at follows ⊢
  rw [course_of_follows follows whole.symm, Course.afterAll, course, List.append_nil]

theorem course_of_follows_failing {earlier reports : List StepReport} {steps : List Step}
    {step : Step} {report : StepReport} {error : Option String}
    (follows : (Norm.judged judge exact numbering cutOff waits).Follows earlier steps reports)
    (isStep : steps[reports.length]? = some step)
    (fails : (judge (earlier ++ reports) step).Fails step report error) :
    course judge earlier steps = ⟨reports ++ [report], .failed, error⟩ := by
  obtain ⟨done, rest, rfl, atStep⟩ := exists_split_of_getElem? isStep
  rw [course_of_follows follows atStep, course_fails fails]
  rfl

theorem course_of_follows_pending {earlier reports : List StepReport} {steps : List Step}
    {step : Step} {output : StepOutput} {issues : List Issue}
    (follows : (Norm.judged judge exact numbering cutOff waits).Follows earlier steps reports)
    (isStep : steps[reports.length]? = some step)
    (pending : judge (earlier ++ reports) step = .pending output issues) :
    (course judge earlier steps).reports = reports ++ [.waiting step output issues] := by
  obtain ⟨done, rest, rfl, atStep⟩ := exists_split_of_getElem? isStep
  rw [course_of_follows follows atStep, course, pending]
  rfl

/-- A run has ended with the reports and the status of a course, and with its error if that is to be
exact. -/
structure Run.Took (run : Run) (store : Store) (exact : Prop) (course : Course) : Prop where
  reports : (store.stepRunsOf run.id).map store.reportOf = course.reports
  status : run.status = course.status
  error : exact → run.error = course.error

/-- Two runs have ended with the same status and the same reports of their step runs. -/
structure EndAlike (store : Store) (run : Run) (other : Store) (otherRun : Run) : Prop where
  closed : run.status = .succeeded ∨ run.status = .failed
  status : otherRun.status = run.status
  reports : (other.stepRunsOf otherRun.id).map other.reportOf =
    (store.stepRunsOf run.id).map store.reportOf

theorem Run.Took.alike {run otherRun : Run} {store other : Store} {course : Course}
    (took : run.Took store exact course) (closed : run.status = .succeeded ∨ run.status = .failed)
    (otherTook : otherRun.Took other exact course) : EndAlike store run other otherRun where
  closed := closed
  status := otherTook.status.trans took.status.symm
  reports := otherTook.reports.trans took.reports.symm

/-- A run that has succeeded or failed by the norm of a judge has taken its course. -/
theorem Standing.took {origin store : Store} {run : Run} {settled : List StepRun}
    {current : Option StepRun} {phase : Phase}
    (standing : Standing (.judged judge exact numbering cutOff waits) origin run store settled current)
    (stage : Stage (.judged judge exact numbering cutOff waits) run store settled phase current)
    (closed : phase = .succeeded ∨ phase = .failed) :
    run.Took store exact (course judge [] run.orderedSteps) := by
  have follows := standing.follows
  cases stage with
  | succeeded status error whole =>
    rw [course_of_follows_whole follows (by simpa using whole)]
    refine ⟨?_, status, fun _ => error⟩
    rw [standing.begun, Option.toList_none, List.append_nil]
  | @failed step stepRun status isStep ended fails =>
    obtain ⟨own, fails, same⟩ := fails
    rw [course_of_follows_failing follows (by simpa using isStep) fails]
    refine ⟨?_, status, same⟩
    rw [standing.begun, Option.toList_some, List.map_append]
    rfl
  | fresh | between | waiting | working | failing | lost | canceled =>
    rcases closed with no | no <;> cases no

/-- A later record of a run that has succeeded or failed is held, and the run has taken its course. -/
theorem Standing.ended {origin store : Store} {run later : Run} {settled : List StepRun}
    {current : Option StepRun} {phase : Phase}
    (standing : Standing (.judged judge exact numbering cutOff waits) origin later store settled
      current)
    (stage : Stage (.judged judge exact numbering cutOff waits) later store settled phase current)
    (keeps : run.Keeps later) (closed : phase = .succeeded ∨ phase = .failed) :
    store.runs.get? run.id = some later ∧
      (later.status = .succeeded ∨ later.status = .failed) ∧
      later.Took store exact (course judge [] run.orderedSteps) := by
  have held := standing.held
  rw [keeps.id] at held
  have took := standing.took stage closed
  rw [keeps.orderedSteps] at took
  refine ⟨held, ?_, took⟩
  rcases closed with rfl | rfl
  · cases stage with
    | succeeded status => exact Or.inl status
  · cases stage with
    | failed status => exact Or.inr status

end Judged

end Vetting
