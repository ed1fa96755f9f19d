import Vetting.Store.Memory

/-!
Contract: stores whose tables agree with each other.

Owns:
- what setting a key does to the keys and entries of a table;
- `Store.Coherent`, and that it survives beginning and rewriting a step run, changing a
  run, and everything else that leaves the step runs alone;
- the step runs of a run after each of these changes.

Does not own: how a run stands (`Vetting.Proofs.Run.Standing`).

A store is only ever looked at by key and by run.  In a coherent store the two agree:
a step run is among those of its run exactly if it is found under its identifier, and
no two step runs share a run and a step key.
-/

namespace Vetting

namespace Table

variable {κ α : Type} [DecidableEq κ]

theorem mem_of_get? {key : κ} {value : α} {table : Table κ α}
    (found : table.get? key = some value) : (key, value) ∈ table := by
  induction table with
  | nil => cases found
  | cons entry rest inductionHypothesis =>
    obtain ⟨name, old⟩ := entry
    by_cases same : name = key
    · simp only [get?, same, if_true, Option.some.injEq] at found
      simp [same, found]
    · simp only [get?, same, if_false] at found
      exact List.mem_cons_of_mem _ (inductionHypothesis found)

theorem get?_of_mem {key : κ} {value : α} {table : Table κ α}
    (distinct : (table.map Prod.fst).Nodup) (member : (key, value) ∈ table) :
    table.get? key = some value := by
  induction table with
  | nil => cases member
  | cons entry rest inductionHypothesis =>
    obtain ⟨name, old⟩ := entry
    rw [List.map_cons, List.nodup_cons] at distinct
    rcases List.mem_cons.mp member with same | later
    · cases same
      simp [get?]
    · have different : name ≠ key := by
        rintro rfl
        exact distinct.1 (List.mem_map.mpr ⟨_, later, rfl⟩)
      simp only [get?, different, if_false]
      exact inductionHypothesis distinct.2 later

theorem get?_eq_none_iff {key : κ} {table : Table κ α} :
    table.get? key = none ↔ key ∉ table.map Prod.fst := by
  induction table with
  | nil => simp [get?]
  | cons entry rest inductionHypothesis =>
    obtain ⟨name, old⟩ := entry
    by_cases same : name = key
    · simp [get?, same]
    · have different : ¬ key = name := fun equal => same equal.symm
      simp [get?, same, different, inductionHypothesis]

/-- A key that is there already is given its value in place. -/
theorem set_eq_map {key : κ} {value old : α} {table : Table κ α}
    (distinct : (table.map Prod.fst).Nodup) (found : table.get? key = some old) :
    table.set key value = table.map fun entry => if entry.1 = key then (key, value) else entry := by
  induction table with
  | nil => cases found
  | cons entry rest inductionHypothesis =>
    obtain ⟨name, before⟩ := entry
    rw [List.map_cons, List.nodup_cons] at distinct
    by_cases same : name = key
    · subst same
      have others : ∀ entry ∈ rest, entry.1 ≠ name := fun entry member equal =>
        distinct.1 (List.mem_map.mpr ⟨entry, member, equal⟩)
      have kept : rest.map (fun entry => if entry.1 = name then (name, value) else entry) = rest := by
        conv => rhs; rw [← List.map_id rest]
        exact List.map_congr_left fun entry member => by simp [others entry member]
      simp [set, kept]
    · simp only [get?, same, if_false] at found
      simp [set, same, inductionHypothesis distinct.2 found]

/-- A key that is not there goes to the end. -/
theorem set_eq_append {key : κ} {value : α} {table : Table κ α}
    (absent : table.get? key = none) : table.set key value = table ++ [(key, value)] := by
  induction table with
  | nil => rfl
  | cons entry rest inductionHypothesis =>
    obtain ⟨name, before⟩ := entry
    by_cases same : name = key
    · simp [get?, same] at absent
    · simp only [get?, same, if_false] at absent
      simp [set, same, inductionHypothesis absent]

/-- What a table has after a key has been set is what has been set, or what it had before. -/
theorem get?_set_cases {key wanted : κ} {value found : α} {table : Table κ α}
    (held : (table.set key value).get? wanted = some found) :
    (key = wanted ∧ value = found) ∨ (key ≠ wanted ∧ table.get? wanted = some found) := by
  rw [get?_set] at held
  by_cases same : key = wanted
  · rw [if_pos same] at held
    exact Or.inl ⟨same, Option.some.inj held⟩
  · rw [if_neg same] at held
    exact Or.inr ⟨same, held⟩

theorem set_set (key : κ) (first second : α) (table : Table κ α) :
    (table.set key first).set key second = table.set key second := by
  induction table with
  | nil => simp [set]
  | cons entry rest inductionHypothesis =>
    obtain ⟨name, old⟩ := entry
    by_cases same : name = key
    · simp [set, same]
    · simp [set, same, inductionHypothesis]

theorem set_of_get? {key : κ} {value : α} {table : Table κ α}
    (found : table.get? key = some value) : table.set key value = table := by
  induction table with
  | nil => cases found
  | cons entry rest inductionHypothesis =>
    obtain ⟨name, old⟩ := entry
    by_cases same : name = key
    · simp only [get?, same, if_true, Option.some.injEq] at found
      simp [set, same, found]
    · simp only [get?, same, if_false] at found
      simp [set, same, inductionHypothesis found]

/-- A key that is there already leaves the keys as they are. -/
theorem map_fst_set {key : κ} {value old : α} {table : Table κ α}
    (distinct : (table.map Prod.fst).Nodup) (found : table.get? key = some old) :
    (table.set key value).map Prod.fst = table.map Prod.fst := by
  have sameKeys : Prod.fst ∘ (fun entry : κ × α => if entry.1 = key then (key, value) else entry) =
      Prod.fst := by
    funext entry
    by_cases same : entry.1 = key <;> simp [same]
  rw [set_eq_map distinct found, List.map_map, sameKeys]

theorem nodup_set (key : κ) (value : α) {table : Table κ α}
    (distinct : (table.map Prod.fst).Nodup) : ((table.set key value).map Prod.fst).Nodup := by
  cases found : table.get? key with
  | none =>
    rw [set_eq_append found, List.map_append, List.nodup_append]
    refine ⟨distinct, by simp, ?_⟩
    rintro name member other last rfl
    simp only [List.map_cons, List.map_nil, List.mem_singleton] at last
    exact get?_eq_none_iff.mp found (last ▸ member)
  | some old =>
    rw [map_fst_set distinct found]
    exact distinct

end Table

namespace Store

/-- The tables of a store agree with each other. -/
structure Coherent (store : Store) : Prop where
  runIds : ∀ id run, store.runs.get? id = some run → run.id = id
  distinct : (store.stepRuns.map Prod.fst).Nodup
  stepRunIds : ∀ id stepRun, store.stepRuns.get? id = some stepRun → stepRun.id = id
  /-- The index leads to a step run exactly from its run and step key. -/
  indexed : ∀ runId key id, store.stepIndex.get? (runId, key) = some id ↔
    ∃ stepRun, store.stepRuns.get? id = some stepRun ∧ stepRun.runId = runId ∧
      stepRun.stepKey = key
  /-- No step run is without its run. -/
  rooted : ∀ id stepRun, store.stepRuns.get? id = some stepRun →
    ∃ run, store.runs.get? stepRun.runId = some run
  /-- Only what has a step run has findings. -/
  recorded : ∀ id, store.stepRuns.get? id = none → store.findingsOf id = []

theorem coherent_empty : Coherent empty where
  runIds := fun _ _ found => by cases found
  distinct := List.nodup_nil
  stepRunIds := fun _ _ found => by cases found
  indexed := fun _ _ _ =>
    ⟨fun found => (nomatch found), fun ⟨_, found, _⟩ => (nomatch found)⟩
  rooted := fun _ _ found => by cases found
  recorded := fun _ _ => rfl

variable {store : Store}

/-- Only runs, step runs, the index and findings count for coherence. -/
theorem Coherent.congr (coherent : store.Coherent) {after : Store} (runs : after.runs = store.runs)
    (stepRuns : after.stepRuns = store.stepRuns) (stepIndex : after.stepIndex = store.stepIndex)
    (findings : after.findings = store.findings) : after.Coherent := by
  constructor
  · rw [runs]
    exact coherent.runIds
  · rw [stepRuns]
    exact coherent.distinct
  · rw [stepRuns]
    exact coherent.stepRunIds
  · rw [stepRuns, stepIndex]
    exact coherent.indexed
  · rw [runs, stepRuns]
    exact coherent.rooted
  · intro id absent
    rw [stepRuns] at absent
    rw [findingsOf, findings]
    exact coherent.recorded id absent

/-! ### The step runs of a run -/

theorem Coherent.mem_values (coherent : store.Coherent) {stepRun : StepRun} :
    stepRun ∈ store.stepRuns.values ↔ store.stepRuns.get? stepRun.id = some stepRun := by
  constructor
  · intro member
    obtain ⟨⟨id, _⟩, entry, rfl⟩ := List.mem_map.mp member
    have found := Table.get?_of_mem coherent.distinct entry
    rw [coherent.stepRunIds id _ found]
    exact found
  · intro found
    exact List.mem_map.mpr ⟨_, Table.mem_of_get? found, rfl⟩

theorem Coherent.mem_stepRunsOf (coherent : store.Coherent) {runId : Uuid} {stepRun : StepRun} :
    stepRun ∈ store.stepRunsOf runId ↔
      store.stepRuns.get? stepRun.id = some stepRun ∧ stepRun.runId = runId := by
  simp only [stepRunsOf, List.mem_mergeSort, List.mem_filter, coherent.mem_values,
    decide_eq_true_eq]

theorem Coherent.nodup_stepRunsOf (coherent : store.Coherent) (runId : Uuid) :
    (store.stepRunsOf runId).Nodup := by
  rw [stepRunsOf, (List.mergeSort_perm _ _).nodup_iff]
  refine List.Pairwise.filter _ ?_
  rw [Table.values, List.pairwise_map]
  refine List.Pairwise.imp_of_mem ?_ (List.pairwise_map.mp coherent.distinct)
  intro first second isFirst isSecond different same
  refine different ?_
  rw [← coherent.stepRunIds _ _ (Table.get?_of_mem coherent.distinct isFirst),
    ← coherent.stepRunIds _ _ (Table.get?_of_mem coherent.distinct isSecond), same]

/-- Members and a strictly ascending order tell what the step runs of a run are. -/
theorem Coherent.stepRunsOf_eq (coherent : store.Coherent) {runId : Uuid} {stepRuns : List StepRun}
    (ascending : stepRuns.Pairwise fun first second => first.stepOrder < second.stepOrder)
    (members : ∀ stepRun, stepRun ∈ stepRuns ↔
      store.stepRuns.get? stepRun.id = some stepRun ∧ stepRun.runId = runId) :
    store.stepRunsOf runId = stepRuns := by
  have sameMembers : ∀ stepRun, stepRun ∈ store.stepRunsOf runId ↔ stepRun ∈ stepRuns :=
    fun stepRun => coherent.mem_stepRunsOf.trans (members stepRun).symm
  have different : stepRuns.Nodup := ascending.imp fun less same => by
    rw [same] at less
    omega
  have permutation : (store.stepRunsOf runId).Perm stepRuns :=
    (List.perm_ext_iff_of_nodup (coherent.nodup_stepRunsOf runId) different).mpr sameMembers
  have ascends : stepRuns.Pairwise fun first second => first.stepOrder ≤ second.stepOrder :=
    ascending.imp fun less => Int.le_of_lt less
  refine permutation.eq_of_pairwise ?_ ?_ ascends
  · intro first second isFirst isSecond notAbove notBelow
    obtain ⟨firstAt, firstInside, rfl⟩ := List.getElem_of_mem ((sameMembers first).mp isFirst)
    obtain ⟨secondAt, secondInside, rfl⟩ := List.getElem_of_mem isSecond
    have strict := List.pairwise_iff_getElem.mp ascending
    rcases Nat.lt_trichotomy firstAt secondAt with before | same | behind
    · have less := strict firstAt secondAt firstInside secondInside before
      omega
    · simp only [same]
    · have less := strict secondAt firstAt secondInside firstInside behind
      omega
  · rw [stepRunsOf]
    refine List.Pairwise.imp ?_ (List.pairwise_mergeSort ?_ ?_ _)
    · intro first second before
      exact of_decide_eq_true before
    · intro first second third
      simpa using Int.le_trans
    · intro first second
      simpa using Int.le_total _ _

theorem Coherent.stepRunOf?_of_mem (coherent : store.Coherent) {runId : Uuid} {stepRun : StepRun}
    (member : stepRun ∈ store.stepRunsOf runId) :
    store.stepRunOf? runId stepRun.stepKey = some stepRun := by
  obtain ⟨found, ofRun⟩ := coherent.mem_stepRunsOf.mp member
  have index := (coherent.indexed runId stepRun.stepKey stepRun.id).mpr ⟨stepRun, found, ofRun, rfl⟩
  simp [stepRunOf?, index, found]

theorem Coherent.held_of_stepRunOf? (coherent : store.Coherent) {runId : Uuid} {key : String}
    {stepRun : StepRun} (found : store.stepRunOf? runId key = some stepRun) :
    store.stepRuns.get? stepRun.id = some stepRun ∧ stepRun.runId = runId ∧
      stepRun.stepKey = key := by
  obtain ⟨id, index, held⟩ := Option.bind_eq_some_iff.mp found
  obtain ⟨other, isOther, ofRun, ofKey⟩ := (coherent.indexed _ _ _).mp index
  obtain rfl := Option.some.inj (isOther.symm.trans held)
  obtain rfl := coherent.stepRunIds _ _ held
  exact ⟨held, ofRun, ofKey⟩

theorem Coherent.stepRunOf?_eq_some (coherent : store.Coherent) {runId : Uuid} {key : String}
    {stepRun : StepRun} :
    store.stepRunOf? runId key = some stepRun ↔
      stepRun ∈ store.stepRunsOf runId ∧ stepRun.stepKey = key := by
  constructor
  · intro found
    obtain ⟨held, ofRun, ofKey⟩ := coherent.held_of_stepRunOf? found
    exact ⟨coherent.mem_stepRunsOf.mpr ⟨held, ofRun⟩, ofKey⟩
  · rintro ⟨member, rfl⟩
    exact coherent.stepRunOf?_of_mem member

theorem Coherent.stepRunOf?_eq_none (coherent : store.Coherent) {runId : Uuid} {key : String}
    (absent : ∀ stepRun ∈ store.stepRunsOf runId, stepRun.stepKey ≠ key) :
    store.stepRunOf? runId key = none := by
  cases index : store.stepIndex.get? (runId, key) with
  | none => simp [stepRunOf?, index]
  | some id =>
    obtain ⟨stepRun, found, ofRun, ofKey⟩ := (coherent.indexed runId key id).mp index
    have ownId := coherent.stepRunIds id stepRun found
    subst ownId
    exact absurd ofKey (absent stepRun (coherent.mem_stepRunsOf.mpr ⟨found, ofRun⟩))

/-! ### Rewriting a step run -/

/-- One store follows another by giving a step run a new record and new findings. -/
structure Rewrites (before : Store) (stepRun : StepRun) (findings : List Finding)
    (after : Store) : Prop where
  submissions : after.submissions = before.submissions
  runs : after.runs = before.runs
  stepRuns : after.stepRuns = before.stepRuns.set stepRun.id stepRun
  stepIndex : after.stepIndex = before.stepIndex
  findings : ∀ id, after.findingsOf id =
    if stepRun.id = id then findings else before.findingsOf id
  receipts : after.receipts = before.receipts
  failingWrites : after.failingWrites = before.failingWrites

theorem Rewrites.refl {stepRun : StepRun}
    (held : store.stepRuns.get? stepRun.id = some stepRun) :
    Rewrites store stepRun (store.findingsOf stepRun.id) store where
  submissions := rfl
  runs := rfl
  stepRuns := (Table.set_of_get? held).symm
  stepIndex := rfl
  findings := fun id => by
    by_cases same : stepRun.id = id <;> simp [same]
  receipts := rfl
  failingWrites := rfl

theorem Rewrites.trans {middle after : Store} {first second : StepRun}
    {firstFindings secondFindings : List Finding} (left : Rewrites store first firstFindings middle)
    (right : Rewrites middle second secondFindings after) (same : second.id = first.id) :
    Rewrites store second secondFindings after where
  submissions := right.submissions.trans left.submissions
  runs := right.runs.trans left.runs
  stepRuns := by rw [right.stepRuns, left.stepRuns, same, Table.set_set]
  stepIndex := right.stepIndex.trans left.stepIndex
  findings := fun id => by
    rw [right.findings, left.findings, same]
    by_cases own : first.id = id <;> simp [own]
  receipts := right.receipts.trans left.receipts
  failingWrites := right.failingWrites.trans left.failingWrites

section Rewriting

variable {after : Store} {stepRun : StepRun} {findings : List Finding}

theorem Rewrites.get? (rewrites : Rewrites store stepRun findings after) (id : Uuid) :
    after.stepRuns.get? id =
      if stepRun.id = id then some stepRun else store.stepRuns.get? id := by
  rw [rewrites.stepRuns, Table.get?_set]

theorem Rewrites.get?_self (rewrites : Rewrites store stepRun findings after) :
    after.stepRuns.get? stepRun.id = some stepRun := by
  rw [rewrites.get?, if_pos rfl]

theorem Rewrites.findings_self (rewrites : Rewrites store stepRun findings after) :
    after.findingsOf stepRun.id = findings := by
  rw [rewrites.findings, if_pos rfl]

variable {old : StepRun}

theorem Rewrites.coherent (rewrites : Rewrites store stepRun findings after)
    (coherent : store.Coherent) (held : store.stepRuns.get? stepRun.id = some old)
    (sameRun : stepRun.runId = old.runId) (sameKey : stepRun.stepKey = old.stepKey) :
    after.Coherent where
  runIds := by
    rw [rewrites.runs]
    exact coherent.runIds
  distinct := by
    rw [rewrites.stepRuns]
    exact Table.nodup_set _ _ coherent.distinct
  stepRunIds := by
    intro id found
    rw [rewrites.get?]
    by_cases same : stepRun.id = id
    · rw [if_pos same]
      rintro ⟨⟩
      exact same
    · rw [if_neg same]
      exact coherent.stepRunIds id found
  indexed := by
    intro runId key id
    rw [rewrites.stepIndex, coherent.indexed, rewrites.get?]
    by_cases same : stepRun.id = id
    · subst same
      simp [held, sameRun, sameKey]
    · rw [if_neg same]
  rooted := by
    intro id other
    rw [rewrites.get?, rewrites.runs]
    by_cases same : stepRun.id = id
    · rw [if_pos same]
      rintro ⟨⟩
      rw [sameRun]
      exact coherent.rooted _ _ held
    · rw [if_neg same]
      exact coherent.rooted id other
  recorded := by
    intro id
    rw [rewrites.get?, rewrites.findings]
    by_cases same : stepRun.id = id
    · simp [same]
    · rw [if_neg same, if_neg same]
      exact coherent.recorded id

/-- The step runs of every run stay where they are, and only the rewritten one is another. -/
theorem Rewrites.stepRunsOf (rewrites : Rewrites store stepRun findings after)
    (coherent : store.Coherent) (held : store.stepRuns.get? stepRun.id = some old)
    (sameRun : stepRun.runId = old.runId) (sameOrder : stepRun.stepOrder = old.stepOrder)
    (runId : Uuid) :
    after.stepRunsOf runId =
      (store.stepRunsOf runId).map fun other => if other.id = stepRun.id then stepRun else other := by
  have ownId : ∀ other ∈ store.stepRuns.values, other.id = stepRun.id → other = old := by
    intro other member same
    have found := coherent.mem_values.mp member
    rw [same, held] at found
    exact (Option.some.inj found).symm
  have values : after.stepRuns.values =
      store.stepRuns.values.map fun other => if other.id = stepRun.id then stepRun else other := by
    rw [Table.values, rewrites.stepRuns, Table.set_eq_map coherent.distinct held, Table.values,
      List.map_map, List.map_map]
    apply List.map_congr_left
    intro entry member
    have ofEntry : entry.2.id = entry.1 :=
      coherent.stepRunIds _ _ (Table.get?_of_mem coherent.distinct member)
    by_cases same : entry.1 = stepRun.id <;> simp [ofEntry, same]
  rw [Store.stepRunsOf, values, List.filter_map, Store.stepRunsOf, List.map_mergeSort]
  · congr 2
    apply List.filter_congr
    intro other member
    by_cases same : other.id = stepRun.id
    · obtain rfl := ownId other member same
      simp [same, sameRun]
    · simp [same]
  · have order : ∀ other ∈ store.stepRuns.values,
        (if other.id = stepRun.id then stepRun else other).stepOrder = other.stepOrder := by
      intro other member
      by_cases same : other.id = stepRun.id
      · rw [if_pos same, sameOrder, ownId other member same]
      · rw [if_neg same]
    intro first isFirst second isSecond
    rw [order first (List.mem_filter.mp isFirst).1, order second (List.mem_filter.mp isSecond).1]

end Rewriting

/-! ### Beginning a step run -/

private theorem number_le_foldl (entries : List (Uuid × StepRun)) (least : Nat) :
    least ≤ entries.foldl (fun least entry => max least (entry.1.number + 1)) least ∧
      ∀ entry ∈ entries, entry.1.number <
        entries.foldl (fun least entry => max least (entry.1.number + 1)) least := by
  induction entries generalizing least with
  | nil => simp
  | cons head rest inductionHypothesis =>
    obtain ⟨above, bounded⟩ := inductionHypothesis (max least (head.1.number + 1))
    rw [List.foldl_cons]
    refine ⟨by omega, fun entry member => ?_⟩
    rcases List.mem_cons.mp member with rfl | later
    · omega
    · exact bounded entry later

theorem get?_freshId (store : Store) : store.stepRuns.get? store.freshId = none := by
  rw [Table.get?_eq_none_iff]
  intro member
  obtain ⟨entry, inside, same⟩ := List.mem_map.mp member
  have bounded := (number_le_foldl store.stepRuns firstNumber).2 entry inside
  rw [same] at bounded
  exact Nat.lt_irrefl _ bounded

/-- Fresh identifiers depend on the keys of step runs only. -/
theorem freshId_eq {after : Store}
    (keys : after.stepRuns.map Prod.fst = store.stepRuns.map Prod.fst) :
    after.freshId = store.freshId := by
  have ofKeys : ∀ store : Store, store.freshId =
      ⟨(store.stepRuns.map Prod.fst).foldl (fun least id => max least (id.number + 1))
        firstNumber⟩ := fun store => by rw [freshId, List.foldl_map]
  rw [ofKeys, ofKeys, keys]

theorem Rewrites.freshId {after : Store} {stepRun old : StepRun} {findings : List Finding}
    (rewrites : Rewrites store stepRun findings after) (coherent : store.Coherent)
    (held : store.stepRuns.get? stepRun.id = some old) : after.freshId = store.freshId :=
  freshId_eq (by rw [rewrites.stepRuns, Table.map_fst_set coherent.distinct held])

section Beginning

variable {created : StepRun}

theorem freshId_putStepRun (fresh : created.id = store.freshId) :
    (store.putStepRun created).freshId.number = store.freshId.number + 1 := by
  have entries : (store.putStepRun created).stepRuns = store.stepRuns ++ [(created.id, created)] :=
    Table.set_eq_append (by rw [fresh, get?_freshId])
  have later : (store.putStepRun created).freshId.number =
      max store.freshId.number (created.id.number + 1) := by
    rw [Store.freshId, entries, List.foldl_append]
    rfl
  rw [later, fresh]
  omega

theorem Coherent.putStepRun (coherent : store.Coherent) {run : Run}
    (held : store.runs.get? created.runId = some run)
    (fresh : store.stepRuns.get? created.id = none)
    (absent : store.stepRunOf? created.runId created.stepKey = none) :
    (store.putStepRun created).Coherent where
  runIds := coherent.runIds
  distinct := Table.nodup_set _ _ coherent.distinct
  stepRunIds := by
    intro id found
    rw [Store.putStepRun, Table.get?_set]
    by_cases same : created.id = id
    · rw [if_pos same]
      rintro ⟨⟩
      exact same
    · rw [if_neg same]
      exact coherent.stepRunIds id found
  indexed := by
    intro runId key id
    rw [Store.putStepRun, Table.get?_set, Table.get?_set]
    by_cases sameEntry : (created.runId, created.stepKey) = (runId, key)
    · obtain ⟨rfl, rfl⟩ := Prod.mk.inj sameEntry
      rw [if_pos rfl, Option.some.injEq]
      constructor
      · rintro rfl
        exact ⟨created, by rw [if_pos rfl], rfl, rfl⟩
      · rintro ⟨other, found, ofRun, ofKey⟩
        by_cases sameId : created.id = id
        · exact sameId
        · rw [if_neg sameId] at found
          have index := (coherent.indexed _ _ id).mpr ⟨other, found, ofRun, ofKey⟩
          simp [stepRunOf?, index, found] at absent
    · rw [if_neg sameEntry, coherent.indexed]
      by_cases sameId : created.id = id
      · subst sameId
        rw [if_pos rfl, fresh]
        constructor
        · rintro ⟨_, ⟨⟩, _⟩
        · rintro ⟨other, ⟨⟩, ofRun, ofKey⟩
          exact absurd (by rw [ofRun, ofKey]) sameEntry
      · rw [if_neg sameId]
  rooted := by
    intro id other
    rw [Store.putStepRun, Table.get?_set]
    by_cases same : created.id = id
    · rw [if_pos same]
      rintro ⟨⟩
      exact ⟨run, held⟩
    · rw [if_neg same]
      exact coherent.rooted id other
  recorded := by
    intro id
    rw [Store.putStepRun, Table.get?_set]
    by_cases same : created.id = id
    · simp [same]
    · rw [if_neg same]
      exact coherent.recorded id

/-- A step run that begins after all others of its run is the last one of its run. -/
theorem Coherent.stepRunsOf_putStepRun (coherent : store.Coherent) {run : Run}
    (held : store.runs.get? created.runId = some run)
    (fresh : store.stepRuns.get? created.id = none)
    (absent : store.stepRunOf? created.runId created.stepKey = none)
    (ascending : (store.stepRunsOf created.runId ++ [created]).Pairwise
      fun first second => first.stepOrder < second.stepOrder) :
    (store.putStepRun created).stepRunsOf created.runId =
      store.stepRunsOf created.runId ++ [created] := by
  apply (coherent.putStepRun held fresh absent).stepRunsOf_eq ascending
  intro stepRun
  rw [List.mem_append, List.mem_singleton, coherent.mem_stepRunsOf, Store.putStepRun,
    Table.get?_set]
  by_cases same : created.id = stepRun.id
  · rw [if_pos same]
    constructor
    · rintro (⟨found, _⟩ | rfl)
      · rw [← same, fresh] at found
        cases found
      · exact ⟨rfl, rfl⟩
    · rintro ⟨⟨⟩, _⟩
      exact Or.inr rfl
  · rw [if_neg same]
    constructor
    · rintro (found | rfl)
      · exact found
      · exact absurd rfl same
    · exact Or.inl

end Beginning

end Store

end Vetting
