import Vetting.Proofs.Store.Coherence

/-!
Contract: stores that differ in what belongs to one run only.

Owns:
- `Store.Elsewhere`: outside of a run, one store is as another;
- giving a run another record, and what that leaves as it is;
- that beginning and rewriting step runs of a run is not seen elsewhere.

Does not own: what happens inside the run.
-/

namespace Vetting

namespace Store

/-- Outside of a run, a store is as before. -/
structure Elsewhere (runId : Uuid) (before after : Store) : Prop where
  submissions : after.submissions = before.submissions
  receipts : after.receipts = before.receipts
  runs : ∀ id, id ≠ runId → after.runs.get? id = before.runs.get? id
  stepRuns : ∀ id stepRun, stepRun.runId ≠ runId →
    (after.stepRuns.get? id = some stepRun ↔ before.stepRuns.get? id = some stepRun)
  findings : ∀ id stepRun, before.stepRuns.get? id = some stepRun → stepRun.runId ≠ runId →
    after.findingsOf id = before.findingsOf id

theorem Elsewhere.refl (runId : Uuid) (store : Store) : Elsewhere runId store store :=
  ⟨rfl, rfl, fun _ _ => rfl, fun _ _ _ => Iff.rfl, fun _ _ _ _ => rfl⟩

section Changes

variable {runId : Uuid} {before middle after : Store}

theorem Elsewhere.trans (first : Elsewhere runId before middle)
    (second : Elsewhere runId middle after) : Elsewhere runId before after where
  submissions := second.submissions.trans first.submissions
  receipts := second.receipts.trans first.receipts
  runs := fun id other => (second.runs id other).trans (first.runs id other)
  stepRuns := fun id stepRun other =>
    (second.stepRuns id stepRun other).trans (first.stepRuns id stepRun other)
  findings := fun id stepRun found other =>
    (second.findings id stepRun ((first.stepRuns id stepRun other).mpr found) other).trans
      (first.findings id stepRun found other)

theorem Rewrites.elsewhere {stepRun old : StepRun} {findings : List Finding}
    (rewrites : Rewrites before stepRun findings after)
    (held : before.stepRuns.get? stepRun.id = some old) (sameRun : stepRun.runId = old.runId) :
    Elsewhere stepRun.runId before after where
  submissions := rewrites.submissions
  receipts := rewrites.receipts
  runs := fun id _ => by rw [rewrites.runs]
  stepRuns := by
    intro id other ofOther
    rw [rewrites.get?]
    by_cases same : stepRun.id = id
    · subst same
      rw [if_pos rfl, held]
      constructor
      · rintro ⟨⟩
        exact absurd rfl ofOther
      · rintro ⟨⟩
        exact absurd sameRun.symm ofOther
    · rw [if_neg same]
  findings := by
    intro id other found ofOther
    rw [rewrites.findings]
    by_cases same : stepRun.id = id
    · subst same
      rw [held] at found
      cases found
      exact absurd sameRun.symm ofOther
    · rw [if_neg same]

theorem elsewhere_putStepRun {created : StepRun}
    (fresh : before.stepRuns.get? created.id = none) :
    Elsewhere created.runId before (before.putStepRun created) where
  submissions := rfl
  receipts := rfl
  runs := fun _ _ => rfl
  stepRuns := by
    intro id other ofOther
    rw [putStepRun, Table.get?_set]
    by_cases same : created.id = id
    · subst same
      rw [if_pos rfl, fresh]
      constructor
      · rintro ⟨⟩
        exact absurd rfl ofOther
      · rintro ⟨⟩
    · rw [if_neg same]
  findings := fun _ _ _ _ => rfl

/-! ### The record of a run -/

def withRun (store : Store) (run : Run) : Store :=
  { store with runs := store.runs.set run.id run }

@[simp] theorem withRun_get? (store : Store) (run : Run) :
    (store.withRun run).runs.get? run.id = some run := by
  rw [withRun, Table.get?_set, if_pos rfl]

@[simp] theorem withRun_stepRuns (store : Store) (run : Run) :
    (store.withRun run).stepRuns = store.stepRuns := rfl

@[simp] theorem withRun_stepRunsOf (store : Store) (run : Run) (runId : Uuid) :
    (store.withRun run).stepRunsOf runId = store.stepRunsOf runId := rfl

@[simp] theorem withRun_findingsOf (store : Store) (run : Run) (id : Uuid) :
    (store.withRun run).findingsOf id = store.findingsOf id := rfl

theorem withRun_withRun (store : Store) {run other : Run} (same : other.id = run.id) :
    (store.withRun run).withRun other = store.withRun other := by
  rw [withRun, withRun, same, Table.set_set]
  rw [withRun, same]

theorem elsewhere_withRun (store : Store) (run : Run) :
    Elsewhere run.id store (store.withRun run) where
  submissions := rfl
  receipts := rfl
  runs := fun id other => by
    rw [withRun, Table.get?_set, if_neg fun same => other same.symm]
  stepRuns := fun _ _ _ => Iff.rfl
  findings := fun _ _ _ _ => rfl

theorem Coherent.withRun (coherent : before.Coherent) (run : Run) :
    (before.withRun run).Coherent where
  runIds := by
    intro id other found
    obtain ⟨same, rfl⟩ | ⟨_, before⟩ := Table.get?_set_cases found
    · exact same
    · exact coherent.runIds id other before
  distinct := coherent.distinct
  stepRunIds := coherent.stepRunIds
  indexed := coherent.indexed
  rooted := by
    intro id stepRun found
    rw [Store.withRun, Table.get?_set]
    by_cases same : run.id = stepRun.runId
    · exact ⟨run, if_pos same⟩
    · rw [if_neg same]
      exact coherent.rooted id stepRun found
  recorded := coherent.recorded

/-! ### Receipts -/

def withReceipts (store : Store) (receipts : List String) : Store := { store with receipts }

@[simp] theorem withReceipts_receipts (store : Store) (receipts : List String) :
    (store.withReceipts receipts).receipts = receipts := rfl

theorem Coherent.withReceipts (coherent : before.Coherent) (receipts : List String) :
    (before.withReceipts receipts).Coherent := coherent.congr rfl rfl rfl rfl

end Changes

end Store

end Vetting
