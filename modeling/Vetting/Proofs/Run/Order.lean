import Vetting.Execution.Engine

/-!
Contract: the order in which the steps of a run are taken.

Owns:
- `Run.WellOrdered`: the steps of a run have keys and orders of their own;
- its steps in ascending order, and looking them up by key;
- the steps that are taken from an order on, and the order from which a run goes on.

Does not own: which steps have been taken (`Vetting.Proofs.Run.Standing`).
-/

namespace Vetting

/-- The key and the order of a step. -/
def Step.place (step : Step) : String × Int := (step.key, step.order)

/-- The key and the order of the step of a step run. -/
def StepRun.place (stepRun : StepRun) : String × Int := (stepRun.stepKey, stepRun.stepOrder)

/-- The steps have keys and orders of their own, and none is below the least order. -/
structure DistinctSteps (steps : List Step) : Prop where
  keys : (steps.map Step.key).Nodup
  orders : (steps.map Step.order).Nodup
  bounded : ∀ step ∈ steps, Execution.leastOrder ≤ step.order

theorem DistinctSteps.perm {steps others : List Step} (distinct : DistinctSteps steps)
    (permutation : steps.Perm others) : DistinctSteps others where
  keys := (permutation.map Step.key).nodup_iff.mp distinct.keys
  orders := (permutation.map Step.order).nodup_iff.mp distinct.orders
  bounded := fun step member => distinct.bounded step (permutation.mem_iff.mpr member)

namespace Run

variable {run : Run}

/-- The steps of a run are distinct. -/
def WellOrdered (run : Run) : Prop := DistinctSteps run.steps

theorem perm_inOrder (steps : List Step) : (inOrder steps).Perm steps := List.mergeSort_perm _ _

theorem wellOrdered_fresh {steps : List Step} (distinct : DistinctSteps steps)
    (id workflowId submissionId : Uuid) (now : Timestamp) :
    (fresh id workflowId submissionId steps now).WellOrdered :=
  distinct.perm (perm_inOrder steps).symm

theorem mem_orderedSteps {step : Step} : step ∈ run.orderedSteps ↔ step ∈ run.steps :=
  (perm_inOrder run.steps).mem_iff

theorem sorted_orderedSteps (run : Run) :
    run.orderedSteps.Pairwise fun first second => first.order ≤ second.order := by
  refine List.Pairwise.imp ?_ (List.pairwise_mergeSort ?_ ?_ _)
  · intro first second before
    exact of_decide_eq_true before
  · intro first second third
    simpa using Int.le_trans
  · intro first second
    simpa using Int.le_total _ _

theorem WellOrdered.ascending (ordered : run.WellOrdered) :
    run.orderedSteps.Pairwise fun first second => first.order < second.order := by
  have different : run.orderedSteps.Pairwise fun first second => first.order ≠ second.order := by
    rw [← List.pairwise_map]
    exact ((perm_inOrder run.steps).map Step.order).nodup_iff.mpr ordered.orders
  refine (run.sorted_orderedSteps.and different).imp fun {first second} both => ?_
  have := both.1
  have := both.2
  omega

theorem WellOrdered.keys_orderedSteps (ordered : run.WellOrdered) :
    (run.orderedSteps.map Step.key).Nodup :=
  ((perm_inOrder run.steps).map Step.key).nodup_iff.mpr ordered.keys

theorem WellOrdered.stepByKey? (ordered : run.WellOrdered) {step : Step}
    (member : step ∈ run.orderedSteps) : run.stepByKey? step.key = some step := by
  have distinct := ordered.keys
  have member := mem_orderedSteps.mp member
  unfold Run.stepByKey?
  generalize run.steps = steps at distinct member
  induction steps with
  | nil => cases member
  | cons first rest inductionHypothesis =>
    rw [List.map_cons, List.nodup_cons] at distinct
    rcases List.mem_cons.mp member with rfl | later
    · rw [List.find?_cons_of_pos (by simp)]
    · have different : ¬ first.key = step.key := fun same =>
        distinct.1 (same ▸ List.mem_map_of_mem later)
      rw [List.find?_cons_of_neg (by simpa using different)]
      exact inductionHypothesis distinct.2 later

/-! ### Going on from an order -/

/-- The steps that are taken from an order on come after all others. -/
theorem WellOrdered.from (ordered : run.WellOrdered) (start : Int) :
    ∃ done, run.orderedSteps = done ++ run.orderedSteps.filter (fun step => start ≤ step.order) ∧
      ∀ step ∈ done, step.order < start := by
  have ascending := ordered.ascending
  generalize run.orderedSteps = steps at ascending
  induction steps with
  | nil => exact ⟨[], rfl, fun _ member => nomatch member⟩
  | cons first rest inductionHypothesis =>
    rw [List.pairwise_cons] at ascending
    by_cases taken : start ≤ first.order
    · refine ⟨[], ?_, fun _ member => nomatch member⟩
      rw [List.nil_append, List.filter_cons_of_pos (by simpa using taken),
        List.filter_eq_self.mpr]
      intro step member
      have := ascending.1 step member
      exact decide_eq_true (by omega)
    · obtain ⟨done, split, below⟩ := inductionHypothesis ascending.2
      refine ⟨first :: done, ?_, ?_⟩
      · rw [List.filter_cons_of_neg (by simpa using taken), List.cons_append, ← split]
      · intro step member
        rcases List.mem_cons.mp member with rfl | later
        · omega
        · exact below step later

/-- Going on after a step skips none that comes after it. -/
theorem WellOrdered.resumePoint (ordered : run.WellOrdered) {done rest : List Step} {step : Step}
    (split : run.orderedSteps = done ++ step :: rest) {other : Step}
    (member : other ∈ run.orderedSteps)
    (below : other.order < Execution.resumePoint run step.order) : other ∈ done ++ [step] := by
  have notAbove : ¬ step.order < other.order := by
    intro above
    have candidate : other.order ∈ (run.steps.map Step.order).filter fun order =>
        step.order < order := by
      rw [List.mem_filter]
      exact ⟨List.mem_map_of_mem (mem_orderedSteps.mp member), decide_eq_true above⟩
    unfold Execution.resumePoint Run.nextOrder? at below
    cases next : ((run.steps.map Step.order).filter fun order => step.order < order).min? with
    | none =>
      rw [List.min?_eq_none_iff] at next
      rw [next] at candidate
      cases candidate
    | some least =>
      rw [next, Option.getD_some] at below
      have := (List.min?_eq_some_iff.mp next).2 _ candidate
      omega
  have ascending := ordered.ascending
  rw [split] at member ascending
  rw [List.pairwise_append, List.pairwise_cons] at ascending
  rcases List.mem_append.mp member with before | after
  · exact List.mem_append_left _ before
  · rcases List.mem_cons.mp after with rfl | later
    · simp
    · exact absurd (ascending.2.1.1 other later) notAbove

/-- A run goes on from above the step that has passed. -/
theorem lt_resumePoint (run : Run) (order : Int) : order < Execution.resumePoint run order := by
  unfold Execution.resumePoint Run.nextOrder?
  cases next : ((run.steps.map Step.order).filter fun other => order < other).min? with
  | none =>
    rw [Option.getD_none]
    omega
  | some least =>
    have member := (List.min?_eq_some_iff.mp next).1
    rw [List.mem_filter, decide_eq_true_eq] at member
    exact member.2

/-- Going on after a step takes just the steps that come after it. -/
theorem WellOrdered.filter_resumePoint (ordered : run.WellOrdered) {done rest : List Step}
    {step : Step} (split : run.orderedSteps = done ++ step :: rest) :
    run.orderedSteps.filter (fun other => Execution.resumePoint run step.order ≤ other.order) =
      rest := by
  have ascending := ordered.ascending
  rw [split, List.pairwise_append, List.pairwise_cons] at ascending
  have start := lt_resumePoint run step.order
  have notTaken : ∀ other ∈ done, ¬ Execution.resumePoint run step.order ≤ other.order := by
    intro other before
    have := ascending.2.2 other before step List.mem_cons_self
    omega
  have taken : ∀ other ∈ rest, Execution.resumePoint run step.order ≤ other.order := by
    intro other after
    rcases Int.lt_or_le other.order (Execution.resumePoint run step.order) with below | isTaken
    · have inside := ordered.resumePoint split (by simp [split, after]) below
      have later := ascending.2.1.1 other after
      rcases List.mem_append.mp inside with before | isStep
      · have := ascending.2.2 other before step List.mem_cons_self
        omega
      · rw [List.mem_singleton.mp isStep] at later
        omega
    · exact isTaken
  rw [split, List.filter_append, List.filter_cons_of_neg (by simpa using start),
    List.filter_eq_nil_iff.mpr fun other before => by simpa using notTaken other before,
    List.filter_eq_self.mpr fun other after => by simpa using taken other after, List.nil_append]

end Run

end Vetting
