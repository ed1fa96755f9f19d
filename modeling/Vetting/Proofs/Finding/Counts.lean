import Mathlib.Algebra.Ring.Nat
import Vetting.Workflow.StepRun

/-!
Contract: what counts of observations and of assertions say.

Owns:
- the count of each severity among some observations, in sums of counts and in their total;
- that no more assertions have failed than there are, in one stage and in the output of a step.

Does not own: which counts are stored.
-/

namespace Vetting

/-! ### Severities -/

namespace SeverityCounts

/-- How many observations there are of a severity. -/
def count (counts : SeverityCounts) : Severity → Nat
  | .error => counts.error
  | .warning => counts.warning
  | .info => counts.info
  | .success => counts.success

/-- Counts that agree on each severity are the same. -/
theorem eq_of_count {first second : SeverityCounts}
    (same : ∀ severity, first.count severity = second.count severity) : first = second := by
  have error := same .error
  have warning := same .warning
  have info := same .info
  have success := same .success
  cases first
  cases second
  simp only [count] at error warning info success
  rw [error, warning, info, success]

@[simp] theorem count_zero (severity : Severity) : zero.count severity = 0 := by
  cases severity <;> rfl

@[simp] theorem count_add (counts : SeverityCounts) (added severity : Severity) :
    (counts.add added).count severity =
      counts.count severity + if added = severity then 1 else 0 := by
  cases added <;> cases severity <;> rfl

@[simp] theorem count_plus (first second : SeverityCounts) (severity : Severity) :
    (first.plus second).count severity = first.count severity + second.count severity := by
  cases severity <;> rfl

theorem count_foldl_add (severities : List Severity) (counts : SeverityCounts)
    (severity : Severity) :
    (severities.foldl add counts).count severity =
      counts.count severity + severities.count severity := by
  induction severities generalizing counts with
  | nil => rfl
  | cons first rest inductionHypothesis =>
    rw [List.foldl_cons, inductionHypothesis, count_add, List.count_cons]
    by_cases same : first = severity
    · simp only [same, if_true, beq_self_eq_true]
      omega
    · simp [same]

@[simp] theorem count_of (severities : List Severity) (severity : Severity) :
    (of severities).count severity = severities.count severity := by
  rw [of, count_foldl_add, count_zero, Nat.zero_add]

/-- Counts that are added up have the sums of the single counts. -/
theorem count_foldl_plus (all : List SeverityCounts) (counts : SeverityCounts)
    (severity : Severity) :
    (all.foldl plus counts).count severity =
      counts.count severity + (all.map fun each => each.count severity).sum := by
  induction all generalizing counts with
  | nil => rfl
  | cons first rest inductionHypothesis =>
    rw [List.foldl_cons, inductionHypothesis, count_plus, List.map_cons, List.sum_cons]
    omega

theorem countP_unsuccessful (severities : List Severity) :
    (severities.countP fun severity => severity ≠ .success) =
      severities.count .error + severities.count .warning + severities.count .info := by
  induction severities with
  | nil => rfl
  | cons first rest inductionHypothesis =>
    simp only [List.countP_cons, List.count_cons, inductionHypothesis]
    cases first <;> simp <;> omega

theorem success_le_total (counts : SeverityCounts) : counts.success ≤ counts.total :=
  Nat.le_add_left _ _

/-- Taking those of success off the total leaves all others. -/
theorem total_sub_success (severities : List Severity) :
    (of severities).total - (of severities).success =
      severities.countP fun severity => severity ≠ .success := by
  have error : (of severities).error = severities.count .error := count_of severities .error
  have warning : (of severities).warning = severities.count .warning := count_of severities .warning
  have info : (of severities).info = severities.count .info := count_of severities .info
  rw [countP_unsuccessful, total, Nat.add_sub_cancel, error, warning, info]

end SeverityCounts

/-- Counting the severities of findings is counting the findings of each severity. -/
theorem count_severities (findings : List Finding) (severity : Severity) :
    (findings.map Finding.severity).count severity =
      findings.countP fun finding => finding.severity = severity := by
  rw [List.count, List.countP_map]
  refine List.countP_congr fun finding _ => ?_
  simp

/-! ### Assertions -/

/-- No more assertions have failed than there are. -/
def AssertionStats.Sound (stats : AssertionStats) : Prop := stats.failures ≤ stats.total

theorem AssertionStats.Sound.zero : AssertionStats.zero.Sound := Nat.le_refl 0

theorem AssertionStats.Sound.ofIssues (issues : List Issue) :
    (AssertionStats.ofIssues issues).Sound := by
  refine List.countP_mono_left fun issue _ failed => ?_
  rw [Issue.isFailedAssertion, Bool.and_eq_true] at failed
  exact failed.1

/-- No more assertions have failed than there are, in either stage. -/
structure StepOutput.Sound (output : StepOutput) : Prop where
  input : output.inputAssertions.Sound
  output : output.outputAssertions.Sound

theorem StepOutput.Sound.empty : StepOutput.empty.Sound := ⟨.zero, .zero⟩

theorem StepOutput.Sound.failures_le {output : StepOutput} (sound : output.Sound) :
    output.assertionFailures ≤ output.assertionTotal := Nat.add_le_add sound.input sound.output

end Vetting
