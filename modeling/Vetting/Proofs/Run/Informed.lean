import Vetting.Proofs.Run.Judgement

/-!
Contract: the course of steps whose jobs callbacks report about.

Owns:
- callbacks, and what they report about the job of a step;
- `Judge.informed`: a judge that takes the reports of callbacks for jobs that are accepted;
- that the reports of a course below an order rest on the steps below it only.

Does not own: that runs take this course (`Vetting.Proofs.Run.Calling`).

A step is informed once: what counts is the first callback for its key.
-/

namespace Vetting

open Execution

/-! ### Callbacks -/

/-- A callback: the key of the step that it is for, and the report of its job. -/
structure Call where
  stepKey : String
  envelope : Envelope

/-- What callbacks report about the job of a step. -/
def reported? (calls : List Call) (key : String) : Option Envelope :=
  (calls.find? fun call => call.stepKey = key).map Call.envelope

/-- The callbacks for steps below an order. -/
def callsBelow (order : Int) (steps : List Step) (calls : List Call) : List Call :=
  calls.filter fun call => steps.any fun step => step.key = call.stepKey ∧ step.order < order

section Calls

variable {calls : List Call} {key : String}

/-- A callback for another step tells nothing of a step. -/
theorem reported?_other {call : Call} (other : call.stepKey ≠ key) :
    reported? (calls ++ [call]) key = reported? calls key := by
  simp [reported?, List.find?_append, other]

theorem reported?_new {call : Call} (same : call.stepKey = key) (new : reported? calls key = none) :
    reported? (calls ++ [call]) key = some call.envelope := by
  have absent : (calls.find? fun call => call.stepKey = key) = none := by
    simpa [reported?] using new
  simp [reported?, List.find?_append, absent, same]

/-- What is reported of a step below an order is in the callbacks for such steps. -/
theorem reported?_callsBelow {order : Int} {steps : List Step} {step : Step} (member : step ∈ steps)
    (below : step.order < order) :
    reported? (callsBelow order steps calls) step.key = reported? calls step.key := by
  unfold reported? callsBelow
  rw [List.find?_filter]
  congr 2
  funext call
  by_cases same : call.stepKey = step.key
  · have inside : ∃ other ∈ steps, other.key = step.key ∧ other.order < order :=
      ⟨step, member, rfl, below⟩
    simp [same, inside]
  · simp [same]

end Calls

/-! ### A judge that is informed by callbacks -/

/-- Only steps whose work is a job wait. -/
def Judge.WaitsForJobs (judge : Judge) (equipment : Equipment) : Prop :=
  ∀ earlier step output issues, judge earlier step = .pending output issues →
    ∃ validator ruleset external, step.IsJob equipment.validators validator ruleset external

/-- A step whose job is accepted comes to what a callback reports, if there is one for it. -/
def Judge.informed (judge : Judge) (equipment : Equipment) (calls : List Call) : Judge :=
  fun earlier step =>
    match judge earlier step with
    | .pending output issues =>
      match reported? calls step.key with
      | some envelope => .ofReport equipment step output issues envelope (signalsOf earlier)
      | none => .pending output issues
    | conclusion => conclusion

section Informed

variable {judge : Judge} {equipment : Equipment} {calls others : List Call}
  {earlier : List StepReport} {step : Step}

theorem Judge.informed_congr (same : reported? calls step.key = reported? others step.key) :
    judge.informed equipment calls earlier step = judge.informed equipment others earlier step := by
  unfold informed
  rw [same]

theorem Judge.informed_of_unreported (unreported : reported? calls step.key = none) :
    judge.informed equipment calls earlier step = judge earlier step := by
  unfold informed
  rw [unreported]
  cases judge earlier step <;> rfl

/-- A step that is still pending is so by the judge itself, and nothing is reported of it. -/
theorem Judge.informed_eq_pending {output : StepOutput} {issues : List Issue}
    (pending : judge.informed equipment calls earlier step = .pending output issues) :
    judge earlier step = .pending output issues ∧ reported? calls step.key = none := by
  unfold informed at pending
  cases judged : judge earlier step with
  | ended | faulted =>
    rw [judged] at pending
    cases pending
  | pending left recorded =>
    rw [judged] at pending
    dsimp only at pending
    cases reports : reported? calls step.key with
    | some envelope =>
      rw [reports] at pending
      exact absurd pending (Conclusion.ofReport_ne_pending _ _ _ _ _ _ _ _)
    | none =>
      rw [reports] at pending
      exact ⟨pending, rfl⟩

end Informed

/-! ### The course below an order -/

section Courses

variable {judge other : Judge} {earlier : List StepReport} {steps : List Step}

theorem course_congr (same : ∀ earlier, ∀ step ∈ steps, judge earlier step = other earlier step) :
    course judge earlier steps = course other earlier steps := by
  induction steps generalizing earlier with
  | nil => rfl
  | cons step rest inductionHypothesis =>
    have later : ∀ reports, course judge reports rest = course other reports rest :=
      fun reports => inductionHypothesis fun earlier step member =>
        same earlier step (List.mem_cons_of_mem _ member)
    rw [course, course, same earlier step List.mem_cons_self]
    simp only [later]

/-- The first step passes, or the course ends with it whatever comes later. -/
theorem course_passes_or_ends (judge : Judge) (earlier : List StepReport) (step : Step) :
    (∃ report, (judge earlier step).Passes step report) ∨
      ∃ report, report.order = step.order ∧
        ∀ rest, (course judge earlier (step :: rest)).reports = [report] := by
  simp only [course]
  cases concluded : judge earlier step with
  | ended verdict =>
    by_cases passed : verdict.status = .passed
    · exact Or.inl ⟨_, verdict, rfl, passed, rfl⟩
    · refine Or.inr ⟨verdict.report step, rfl, fun rest => ?_⟩
      dsimp only
      rw [if_neg passed]
      rfl
  | faulted fault => exact Or.inr ⟨_, rfl, fun _ => rfl⟩
  | pending output issues => exact Or.inr ⟨_, rfl, fun _ => rfl⟩

theorem Execution.Conclusion.Passes.order {step : Step} {conclusion : Conclusion}
    {report : StepReport} (passes : conclusion.Passes step report) : report.order = step.order := by
  obtain ⟨verdict, _, _, rfl⟩ := passes
  rfl

/-- Each report of a course is that of one of the steps. -/
theorem exists_step_of_mem_course {report : StepReport}
    (member : report ∈ (course judge earlier steps).reports) :
    ∃ step ∈ steps, report.order = step.order := by
  induction steps generalizing earlier with
  | nil => cases member
  | cons step rest inductionHypothesis =>
    rcases course_passes_or_ends judge earlier step with ⟨first, passes⟩ | ⟨only, order, ends⟩
    · rw [course_passes passes] at member
      rcases List.mem_cons.mp member with rfl | later
      · exact ⟨step, List.mem_cons_self, passes.order⟩
      · obtain ⟨found, inside, order⟩ := inductionHypothesis later
        exact ⟨found, List.mem_cons_of_mem _ inside, order⟩
    · rw [ends, List.mem_singleton] at member
      exact ⟨step, List.mem_cons_self, member ▸ order⟩

/-- Steps that come later make no difference to the reports of those below an order. -/
theorem course_append_below {early late : List Step} {order : Int}
    (below : ∀ step ∈ early, step.order < order) (above : ∀ step ∈ late, order ≤ step.order) :
    (course judge earlier (early ++ late)).reports.filter (fun report => report.order < order) =
      (course judge earlier early).reports := by
  induction early generalizing earlier with
  | nil =>
    rw [List.nil_append, course, List.filter_eq_nil_iff]
    intro report member
    obtain ⟨step, isLate, same⟩ := exists_step_of_mem_course member
    have := above step isLate
    simp only [decide_eq_true_eq]
    omega
  | cons step rest inductionHypothesis =>
    have isBelow := below step List.mem_cons_self
    rw [List.cons_append]
    rcases course_passes_or_ends judge earlier step with ⟨report, passes⟩ | ⟨report, order, ends⟩
    · have later := @inductionHypothesis (earlier ++ [report]) fun step member =>
        below step (List.mem_cons_of_mem _ member)
      rw [course_passes passes, course_passes passes, Course.after, Course.after,
        List.filter_cons_of_pos (by simp only [passes.order, isBelow, decide_true]), later]
    · rw [ends, ends, List.filter_cons_of_pos (by simp only [order, isBelow, decide_true]),
        List.filter_nil]

end Courses

end Vetting
