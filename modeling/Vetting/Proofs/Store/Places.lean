import Mathlib.Algebra.Ring.Nat
import Mathlib.Data.List.Nodup
import Vetting.Proofs.Run.Closing
import Vetting.Proofs.Store.Coherence

/-!
Contract: where the step runs and findings of a run are found, each of them once.

Owns:
- lists of keys that lead to each element of another list once, and sums along both;
- the step run of a step among those of its run, and its findings among those of its run;
- what a store has for each run, whichever way it is asked: that no request changes the steps of a
  run, and that there is one place for the findings of a step run.

Does not own: which findings are stored for which step run (`Vetting.Proofs.Run.Files`).
-/

namespace Vetting

/-! ### Lookups that miss nothing -/

section Lookup

variable {α β : Type} {keys : List α} {find? : α → Option β} {elements : List β}

/-- Keys that lead to different elements, and to all of them, find each one once. -/
theorem perm_filterMap
    (apart : keys.Pairwise fun first second => ∀ element, find? first = some element →
      find? second ≠ some element)
    (distinct : elements.Nodup)
    (members : ∀ element, element ∈ elements ↔ ∃ key ∈ keys, find? key = some element) :
    (keys.filterMap find?).Perm elements := by
  refine (List.perm_ext_iff_of_nodup ?_ distinct).mpr fun element => ?_
  · refine List.pairwise_filterMap.mpr (apart.imp ?_)
    rintro first second differ element found _ foundToo rfl
    exact differ element found foundToo
  · rw [List.mem_filterMap, members]

/-- What is added up key by key is added up element by element. -/
theorem sum_map_find? (all : (keys.filterMap find?).Perm elements) (size : β → Nat) :
    (keys.map fun key => ((find? key).map size).getD 0).sum = (elements.map size).sum := by
  rw [← (all.map size).sum_nat]
  clear all
  induction keys with
  | nil => rfl
  | cons key rest inductionHypothesis =>
    cases found : find? key <;> simp [found, inductionHypothesis]

/-- One element among different ones is all that is left if nothing comes of the others. -/
theorem flatMap_of_mem {element : α} (distinct : keys.Nodup) (member : element ∈ keys)
    {parts : α → List β} (nothing : ∀ other ∈ keys, other ≠ element → parts other = []) :
    keys.flatMap parts = parts element := by
  obtain ⟨before, after, rfl⟩ := List.append_of_mem member
  have apart : element ∉ before ++ after := (List.nodup_middle.mp distinct).notMem
  rw [List.mem_append, not_or] at apart
  have nothingBefore : before.flatMap parts = [] := List.flatMap_eq_nil_iff.mpr fun other isBefore =>
    nothing other (by simp [isBefore]) (ne_of_mem_of_not_mem isBefore apart.1)
  have nothingAfter : after.flatMap parts = [] := List.flatMap_eq_nil_iff.mpr fun other isAfter =>
    nothing other (by simp [isAfter]) (ne_of_mem_of_not_mem isAfter apart.2)
  rw [List.flatMap_append, List.flatMap_cons, nothingBefore, nothingAfter, List.nil_append,
    List.append_nil]

end Lookup

namespace Table

/-- Entries that are removed leave the others as they are. -/
theorem sublist_remove {κ α : Type} [DecidableEq κ] (key : κ) (table : Table κ α) :
    (table.remove key).Sublist table := by
  induction table with
  | nil => exact .slnil
  | cons entry rest inductionHypothesis =>
    rw [remove]
    split
    · exact inductionHypothesis.cons entry
    · exact inductionHypothesis.cons_cons entry

/-- What a table has under one of these keys is what looking them up gives. -/
theorem perm_lookups {κ α : Type} [DecidableEq κ] {table : Table κ (List α)} {keys : List κ}
    (distinct : (table.map Prod.fst).Nodup) (different : keys.Nodup) :
    (keys.flatMap fun key => (table.get? key).getD []).Perm
      (table.flatMap fun entry => if entry.1 ∈ keys then entry.2 else []) := by
  have entries : (keys.filterMap fun key => (table.get? key).map fun value => (key, value)).Perm
      (table.filter fun entry => entry.1 ∈ keys) := by
    refine perm_filterMap ?_ ((List.Nodup.of_map Prod.fst distinct).filter _) fun entry => ?_
    · refine different.imp fun {first second} differ entry isFirst isSecond => differ ?_
      obtain ⟨_, _, rfl⟩ := Option.map_eq_some_iff.mp isFirst
      obtain ⟨_, _, same⟩ := Option.map_eq_some_iff.mp isSecond
      exact (congrArg Prod.fst same).symm
    · obtain ⟨key, value⟩ := entry
      simp only [List.mem_filter, decide_eq_true_eq, Option.map_eq_some_iff, Prod.mk.injEq]
      constructor
      · rintro ⟨member, wanted⟩
        exact ⟨key, wanted, value, get?_of_mem distinct member, rfl, rfl⟩
      · rintro ⟨_, wanted, _, found, rfl, rfl⟩
        exact ⟨mem_of_get? found, wanted⟩
  have lookups : (keys.filterMap fun key => (table.get? key).map fun value => (key, value)).flatMap
      Prod.snd = keys.flatMap fun key => (table.get? key).getD [] := by
    clear entries different
    induction keys with
    | nil => rfl
    | cons key rest inductionHypothesis =>
      cases found : table.get? key <;> simp [found, inductionHypothesis]
  have kept : (table.filter fun entry => entry.1 ∈ keys).flatMap Prod.snd =
      table.flatMap fun entry => if entry.1 ∈ keys then entry.2 else [] := by
    clear entries lookups distinct
    induction table with
    | nil => rfl
    | cons entry rest inductionHypothesis =>
      by_cases wanted : entry.1 ∈ keys <;> simp [wanted, inductionHypothesis]
  rw [← lookups, ← kept]
  exact entries.flatMap_right Prod.snd

end Table

namespace Store

variable {store : Store} {runId : Uuid}

/-! ### The step run of a step -/

theorem Coherent.eq_of_id (coherent : store.Coherent) {first second : StepRun}
    (isFirst : first ∈ store.stepRunsOf runId) (isSecond : second ∈ store.stepRunsOf runId)
    (same : first.id = second.id) : first = second := by
  have held := (coherent.mem_stepRunsOf.mp isFirst).1
  rw [same, (coherent.mem_stepRunsOf.mp isSecond).1] at held
  exact (Option.some.inj held).symm

/-- Going through the step runs of a run for a step leads where the index leads. -/
theorem Coherent.find?_stepRunsOf (coherent : store.Coherent) (runId : Uuid) (key : String) :
    ((store.stepRunsOf runId).reverse.find? fun stepRun => stepRun.stepKey == key) =
      store.stepRunOf? runId key := by
  cases found : (store.stepRunsOf runId).reverse.find? fun stepRun => stepRun.stepKey == key with
  | none =>
    rw [List.find?_eq_none] at found
    refine (coherent.stepRunOf?_eq_none fun stepRun member same => ?_).symm
    exact found stepRun (List.mem_reverse.mpr member) (by simpa using same)
  | some stepRun =>
    have member := List.mem_reverse.mp (List.mem_of_find?_eq_some found)
    have isKey : stepRun.stepKey = key := by simpa using List.find?_some found
    exact (coherent.stepRunOf?_eq_some.mpr ⟨member, isKey⟩).symm

/-- Steps with keys of their own lead to each step run of their run once, if it has no others. -/
theorem Coherent.perm_stepRunsOf (coherent : store.Coherent) {steps : List Step}
    (distinct : (steps.map Step.key).Nodup)
    (planned : ∀ stepRun ∈ store.stepRunsOf runId, stepRun.stepKey ∈ steps.map Step.key) :
    (steps.filterMap fun step => store.stepRunOf? runId step.key).Perm (store.stepRunsOf runId) := by
  refine perm_filterMap ?_ (coherent.nodup_stepRunsOf runId) fun stepRun => ?_
  · refine (List.pairwise_map.mp distinct).imp fun {first second} differ stepRun isFirst isSecond => ?_
    have ofFirst := (coherent.stepRunOf?_eq_some.mp isFirst).2
    exact differ (ofFirst.symm.trans (coherent.stepRunOf?_eq_some.mp isSecond).2)
  · constructor
    · intro member
      obtain ⟨step, isStep, isKey⟩ := List.mem_map.mp (planned stepRun member)
      exact ⟨step, isStep, coherent.stepRunOf?_eq_some.mpr ⟨member, isKey.symm⟩⟩
    · rintro ⟨step, _, found⟩
      exact (coherent.stepRunOf?_eq_some.mp found).1

/-! ### What a store has of a run -/

/-- The steps of a run, none if it is not there. -/
def planOf (store : Store) (runId : Uuid) : List Step :=
  ((store.runs.get? runId).map Run.steps).getD []

/-- All findings that are stored for a run. -/
def findingsFor (store : Store) (runId : Uuid) : List Finding :=
  store.findings.values.flatten.filter fun finding => finding.runId = runId

/-- Runs keep their steps, and there is one place for the findings of a step run if there was one
before. -/
structure Follows (before after : Store) : Prop where
  plans : ∀ runId, after.planOf runId = before.planOf runId
  places : (before.findings.map Prod.fst).Nodup → (after.findings.map Prod.fst).Nodup

/-- Who changes runs and findings in nothing else. -/
theorem Follows.of_eq {before after : Store} (runs : after.runs = before.runs)
    (findings : after.findings = before.findings) : before.Follows after where
  plans := fun runId => by rw [planOf, runs, planOf]
  places := fun distinct => by rwa [findings]

private theorem follows_changed (id : Uuid) (change : Run → Option Run)
    (keeps : ∀ run changed, change run = some changed → changed.steps = run.steps)
    {result : Except EngineFault Bool × Store}
    (opened : result = match store.runs.get? id with
      | none => (.error (.runNotFound id), store)
      | some run => match change run with
        | none => (.ok false, store)
        | some changed => (.ok true, { store with runs := store.runs.set id changed })) :
    store.Follows result.2 := by
  rcases changed_cases opened with ⟨same, _⟩ | ⟨run, changed, held, made, rfl⟩
  · rw [same]
    exact .of_eq rfl rfl
  · refine ⟨fun runId => ?_, fun distinct => distinct⟩
    simp only [planOf, Table.get?_set]
    by_cases same : id = runId
    · subst same
      simp [held, keeps run changed made]
    · rw [if_neg same]

/-- No request changes the steps of a run, and none makes a second place for findings. -/
theorem follows_answer (store : Store) (request : StoreRequest) :
    store.Follows (store.answer request).2 := by
  cases request with
  | startRun id now =>
    refine follows_changed id (fun run =>
      if run.status = .pending then some { run with status := .running, startedAt := some now }
      else none) (fun run changed made => ?_) rfl
    split at made <;> cases made
    rfl
  | closeRun id status error now =>
    cases failing : store.failingWrites with
    | true =>
      simp only [answer, closeRun, failing, if_true]
      exact .of_eq rfl rfl
    | false =>
      have works : store.answer (.closeRun id status error now) = _ := if_neg (by simp [failing])
      refine follows_changed id (fun run => if run.status.isTerminal then none
        else some { run with status, error, endedAt := some now }) (fun run changed made => ?_) works
      split at made <;> cases made
      rfl
  | saveSummary id summary =>
    refine follows_changed id (fun run => some (run.summarized summary)) (fun run changed made => ?_)
      rfl
    cases made
    rfl
  | flagCancel id =>
    refine follows_changed id (fun run => some run.flagged) (fun run changed made => ?_) rfl
    cases made
    rfl
  | submission id => cases isThere : store.submissions.get? id <;>
      simp only [answer, isThere] <;> exact .of_eq rfl rfl
  | run | cancelFlag | stepRun | stepRuns | findings | runFindings | releaseCallback =>
    exact .of_eq rfl rfl
  | acquire runId step now =>
    simp only [answer, acquire]
    split <;> exact .of_eq rfl rfl
  | restart stepRunId attempt now =>
    simp only [answer, restart]
    split
    · exact .of_eq rfl rfl
    · split
      · refine ⟨fun _ => rfl, fun distinct => ?_⟩
        exact distinct.sublist ((Table.sublist_remove _ _).map Prod.fst)
      · exact .of_eq rfl rfl
  | updateStepRun stepRun =>
    simp only [answer, updateStepRun]
    split
    · exact .of_eq rfl rfl
    · split <;> exact .of_eq rfl rfl
  | replaceFindings | appendFindings =>
    simp only [answer, appendFindings, replaceFindings]
    split
    · exact .of_eq rfl rfl
    · exact ⟨fun _ => rfl, Table.nodup_set _ _⟩
  | recordCallback key id now =>
    simp only [answer, recordCallback]
    split <;> exact .of_eq rfl rfl

end Store

end Vetting
