import Vetting.Proofs.Run.Order
import Vetting.Proofs.Step.Processing
import Vetting.Proofs.Store.Elsewhere

/-!
Contract: how a run stands in a store.

Owns:
- reports, which are what step runs have to show whatever identifiers, times and jobs they
  have;
- norms, which say what the reports of a run may be;
- `Standing`: the step runs of a run belong to an initial segment of its steps, and all of
  them but perhaps the last have passed as the norm has it;
- that it survives beginning, rewriting and settling the last step run, another record of
  the run, and everything that happens elsewhere.

Does not own: which status of the run goes with it (`Vetting.Proofs.Run.Driving`).
-/

namespace Vetting

open Scope (Signals)
open Store (Rewrites Elsewhere)

/-- What a step run has to show, apart from identifiers, times and facts about its job. -/
structure StepReport where
  key : String
  order : Int
  status : StepStatus
  error : Option String
  output : StepOutput
  issues : List Issue

def StepRun.report (stepRun : StepRun) (issues : List Issue) : StepReport where
  key := stepRun.stepKey
  order := stepRun.stepOrder
  status := stepRun.status
  error := stepRun.error
  output := { stepRun.output with job? := none }
  issues

def Store.reportOf (store : Store) (stepRun : StepRun) : StepReport :=
  stepRun.report (store.issuesOf stepRun.id)

/-- The signals of steps with these reports. -/
def signalsOf (reports : List StepReport) : Signals :=
  Dictionary.ofEntries ((reports.filter fun report => !report.output.signals.isEmpty).map
    fun report => (report.key, report.output.signals))

/-- What the reports of the steps of a run may be, given the reports of the steps before. -/
structure Norm where
  /-- A step may be found running with an output, after its work was cut off. -/
  cutOff : Step → StepOutput → Prop
  passes : List StepReport → Step → StepReport → Prop
  /-- A step has failed, and the run fails with an error. -/
  fails : List StepReport → Step → StepReport → Option String → Prop
  waits : List StepReport → Step → StepReport → Prop
  /-- The number of the identifier of the first step run, if identifiers are to count up. -/
  numbering : Option Nat

namespace Norm

/-- Reports of steps that have passed, in their order, after reports of earlier steps. -/
def Follows (norm : Norm) : List StepReport → List Step → List StepReport → Prop
  | _, _, [] => True
  | _, [], _ :: _ => False
  | earlier, step :: steps, report :: reports =>
    norm.passes earlier step report ∧ norm.Follows (earlier ++ [report]) steps reports

variable {norm : Norm}

theorem Follows.concat {done rest : List Step} {step : Step} {reports : List StepReport}
    {report : StepReport} {earlier : List StepReport}
    (follows : norm.Follows earlier (done ++ step :: rest) reports)
    (atStep : done.length = reports.length)
    (passes : norm.passes (earlier ++ reports) step report) :
    norm.Follows earlier (done ++ step :: rest) (reports ++ [report]) := by
  induction reports generalizing earlier done with
  | nil =>
    obtain rfl := List.length_eq_zero_iff.mp atStep
    rw [List.append_nil] at passes
    exact ⟨passes, trivial⟩
  | cons first others inductionHypothesis =>
    cases done with
    | nil => cases atStep
    | cons firstStep otherSteps =>
      refine ⟨follows.1, inductionHypothesis follows.2 (Nat.succ.inj atStep) ?_⟩
      rw [List.append_assoc]
      exact passes

/-- Identifiers of step runs count up from the number of the norm, if it has one. -/
def Numbered (norm : Norm) (store : Store) (begun : List StepRun) : Prop :=
  ∀ first, norm.numbering = some first →
    store.freshId.number = first + begun.length ∧
    ∀ index stepRun, begun[index]? = some stepRun → stepRun.id.number = first + index

end Norm

theorem exists_split_of_getElem? {α : Type} {list : List α} {index : Nat} {item : α}
    (found : list[index]? = some item) :
    ∃ done rest, list = done ++ item :: rest ∧ done.length = index := by
  obtain ⟨inside, isItem⟩ := List.getElem?_eq_some_iff.mp found
  refine ⟨list.take index, list.drop (index + 1), ?_, ?_⟩
  · rw [← isItem, List.getElem_cons_drop, List.take_append_drop]
  · rw [List.length_take]
    omega

/-- How a run stands in a store that was another one at its origin. -/
structure Standing (norm : Norm) (origin : Store) (run : Run) (store : Store)
    (settled : List StepRun) (current : Option StepRun) : Prop where
  coherent : store.Coherent
  writable : store.failingWrites = false
  held : store.runs.get? run.id = some run
  begun : store.stepRunsOf run.id = settled ++ current.toList
  places : (settled ++ current.toList).map StepRun.place <+: run.orderedSteps.map Step.place
  passed : ∀ stepRun ∈ settled, stepRun.status = .passed
  follows : norm.Follows [] run.orderedSteps (settled.map store.reportOf)
  numbered : norm.Numbered store (settled ++ current.toList)
  elsewhere : Elsewhere run.id origin store

namespace Standing

variable {norm : Norm} {origin store after : Store} {run : Run} {settled : List StepRun}
  {current : Option StepRun}

/-! ### Places -/

theorem place_at (standing : Standing norm origin run store settled current)
    {done rest : List Step} {step : Step} (split : run.orderedSteps = done ++ step :: rest)
    {stepRun : StepRun} (found : (settled ++ current.toList)[done.length]? = some stepRun) :
    stepRun.place = step.place := by
  obtain ⟨inside, isStepRun⟩ := List.getElem?_eq_some_iff.mp found
  have same := List.prefix_iff_getElem?.mp standing.places done.length (by simpa using inside)
  have isStep : (run.orderedSteps.map Step.place)[done.length]? = some step.place := by
    rw [split]
    simp
  rw [isStep, List.getElem_map, isStepRun] at same
  exact (Option.some.inj same).symm

theorem places_settled (standing : Standing norm origin run store settled current)
    {done rest : List Step} (split : run.orderedSteps = done ++ rest)
    (atStep : done.length = settled.length) :
    settled.map StepRun.place = done.map Step.place := by
  have ofSettled : settled.map StepRun.place <+: run.orderedSteps.map Step.place := by
    have places := standing.places
    rw [List.map_append] at places
    exact (List.prefix_append _ _).trans places
  have ofDone : done.map Step.place <+: run.orderedSteps.map Step.place := by
    rw [split, List.map_append]
    exact List.prefix_append _ _
  refine (List.prefix_of_prefix_length_le ofSettled ofDone ?_).eq_of_length ?_
  · simp [atStep]
  · simp [atStep]

/-- Steps whose places are all settled are no more than the settled ones. -/
theorem length_le_settled (standing : Standing norm origin run store settled current)
    (ordered : run.WellOrdered) {done rest : List Step} (split : run.orderedSteps = done ++ rest)
    (covered : ∀ step ∈ done, step.place ∈ settled.map StepRun.place) :
    done.length ≤ settled.length := by
  rcases Nat.lt_or_ge settled.length done.length with more | atMost
  · have splitDone : run.orderedSteps = done.take settled.length ++
        (done.drop settled.length ++ rest) := by
      rw [← List.append_assoc, List.take_append_drop, split]
    have atStep : (done.take settled.length).length = settled.length := by
      rw [List.length_take]
      omega
    have place := covered done[settled.length] (List.getElem_mem more)
    rw [standing.places_settled splitDone atStep] at place
    obtain ⟨step, member, same⟩ := List.mem_map.mp place
    have ascending := ordered.ascending
    rw [splitDone, List.pairwise_append] at ascending
    have isNext : done[settled.length] ∈ done.drop settled.length ++ rest := by
      rw [List.drop_eq_getElem_cons more, List.cons_append]
      exact List.mem_cons_self
    have less := ascending.2.2 step member _ isNext
    have order : step.order = done[settled.length].order := congrArg Prod.snd same
    omega
  · exact atMost

theorem length_le (standing : Standing norm origin run store settled current) :
    (settled ++ current.toList).length ≤ run.orderedSteps.length := by
  simpa using standing.places.length_le

theorem ascending (standing : Standing norm origin run store settled current)
    (ordered : run.WellOrdered) :
    (settled ++ current.toList).Pairwise fun first second =>
      first.stepOrder < second.stepOrder := by
  have places : ((settled ++ current.toList).map StepRun.place).Pairwise
      fun first second => first.2 < second.2 := by
    refine List.Pairwise.sublist standing.places.sublist ?_
    rw [List.pairwise_map]
    exact ordered.ascending
  rw [List.pairwise_map] at places
  exact places

/-! ### Looking up -/

theorem mem (standing : Standing norm origin run store settled current) {stepRun : StepRun}
    (member : stepRun ∈ settled ++ current.toList) :
    store.stepRuns.get? stepRun.id = some stepRun ∧ stepRun.runId = run.id := by
  rw [← standing.begun] at member
  exact standing.coherent.mem_stepRunsOf.mp member

theorem held_current {stepRun : StepRun}
    (standing : Standing norm origin run store settled (some stepRun)) :
    store.stepRuns.get? stepRun.id = some stepRun ∧ stepRun.runId = run.id :=
  standing.mem (by simp)

theorem ids_settled {stepRun : StepRun}
    (standing : Standing norm origin run store settled (some stepRun))
    {other : StepRun} (member : other ∈ settled) : other.id ≠ stepRun.id := by
  intro same
  have found := (standing.mem (List.mem_append_left _ member)).1
  rw [same, standing.held_current.1] at found
  cases found
  have distinct := standing.coherent.nodup_stepRunsOf run.id
  rw [standing.begun, List.nodup_append] at distinct
  exact distinct.2.2 _ member _ (by simp) rfl

theorem stepRunOf? (standing : Standing norm origin run store settled current) {step : Step}
    {stepRun : StepRun} (member : stepRun ∈ settled ++ current.toList)
    (place : stepRun.place = step.place) : store.stepRunOf? run.id step.key = some stepRun := by
  rw [← standing.begun] at member
  have key : stepRun.stepKey = step.key := congrArg Prod.fst place
  rw [← key]
  exact standing.coherent.stepRunOf?_of_mem member

theorem stepRunOf?_next (standing : Standing norm origin run store settled none)
    (ordered : run.WellOrdered) {done rest : List Step} {step : Step}
    (split : run.orderedSteps = done ++ step :: rest) (atStep : done.length = settled.length) :
    store.stepRunOf? run.id step.key = none := by
  apply standing.coherent.stepRunOf?_eq_none
  intro stepRun member same
  rw [standing.begun, Option.toList_none, List.append_nil] at member
  have place : stepRun.place ∈ done.map Step.place := by
    rw [← standing.places_settled split atStep]
    exact List.mem_map_of_mem member
  obtain ⟨other, inside, samePlace⟩ := List.mem_map.mp place
  have keys := ordered.keys_orderedSteps
  rw [split, List.map_append, List.nodup_append] at keys
  refine keys.2.2 other.key (List.mem_map_of_mem inside) step.key (by simp) ?_
  rw [← same]
  exact congrArg Prod.fst samePlace

/-- The signals before the step that comes next are those of the settled ones. -/
theorem signalsBefore (standing : Standing norm origin run store settled current)
    (ordered : run.WellOrdered) {done rest : List Step} {step : Step}
    (split : run.orderedSteps = done ++ step :: rest) (atStep : done.length = settled.length) :
    store.signalsBefore run.id step.order = signalsOf (settled.map store.reportOf) := by
  have orders : ∀ stepRun ∈ settled, stepRun.stepOrder < step.order := by
    intro stepRun member
    have place : stepRun.place ∈ done.map Step.place := by
      rw [← standing.places_settled split atStep]
      exact List.mem_map_of_mem member
    obtain ⟨other, inside, samePlace⟩ := List.mem_map.mp place
    have ascending := ordered.ascending
    rw [split, List.pairwise_append] at ascending
    have less := ascending.2.2 other inside step (by simp)
    have order : other.order = stepRun.stepOrder := congrArg Prod.snd samePlace
    omega
  have notCurrent : ∀ stepRun ∈ current.toList, ¬ stepRun.stepOrder < step.order := by
    intro stepRun member
    rw [Option.mem_toList] at member
    subst member
    have place : stepRun.place = step.place := standing.place_at split (by simp [atStep])
    have order : stepRun.stepOrder = step.order := congrArg Prod.snd place
    omega
  have ofCurrent : (current.toList.filter fun stepRun =>
      stepRun.stepOrder < step.order && !stepRun.output.signals.isEmpty) = [] :=
    List.filter_eq_nil_iff.mpr fun stepRun member => by simp [notCurrent stepRun member]
  have ofSettled : (settled.filter fun stepRun =>
      stepRun.stepOrder < step.order && !stepRun.output.signals.isEmpty) =
      settled.filter fun stepRun => !stepRun.output.signals.isEmpty :=
    List.filter_congr fun stepRun member => by simp [orders stepRun member]
  unfold Store.signalsBefore signalsOf
  rw [standing.begun, List.filter_append, ofCurrent, ofSettled, List.append_nil, List.filter_map,
    List.map_map]
  rfl

/-! ### Changes -/

/-- Where a run comes from does not matter to how it stands. -/
theorem rebase (standing : Standing norm origin run store settled current) :
    Standing norm store run store settled current :=
  { standing with elsewhere := .refl _ _ }

theorem withRun (standing : Standing norm origin run store settled current) {changed : Run}
    (sameId : changed.id = run.id) (sameSteps : changed.steps = run.steps) :
    Standing norm origin changed (store.withRun changed) settled current where
  coherent := standing.coherent.withRun changed
  writable := standing.writable
  held := store.withRun_get? changed
  begun := by
    rw [sameId]
    exact standing.begun
  places := by
    rw [Run.orderedSteps, sameSteps]
    exact standing.places
  passed := standing.passed
  follows := by
    rw [Run.orderedSteps, sameSteps]
    exact standing.follows
  numbered := standing.numbered
  elsewhere := by
    have here := Store.elsewhere_withRun store changed
    rw [sameId] at here ⊢
    exact standing.elsewhere.trans here

/-- Rewriting the last step run leaves the reports of the others as they are. -/
theorem reports_settled {old stepRun : StepRun} {findings : List Finding}
    (standing : Standing norm origin run store settled (some old))
    (rewrites : Rewrites store stepRun findings after) (sameId : stepRun.id = old.id) :
    settled.map after.reportOf = settled.map store.reportOf := by
  apply List.map_congr_left
  intro other member
  have different : stepRun.id ≠ other.id := fun same =>
    standing.ids_settled member (same.symm.trans sameId)
  rw [Store.reportOf, Store.issuesOf, rewrites.findings, if_neg different]
  rfl

theorem rewrite {old stepRun : StepRun} {findings : List Finding}
    (standing : Standing norm origin run store settled (some old))
    (rewrites : Rewrites store stepRun findings after) (sameId : stepRun.id = old.id)
    (sameRun : stepRun.runId = old.runId) (samePlace : stepRun.place = old.place) :
    Standing norm origin run after settled (some stepRun) := by
  have held : store.stepRuns.get? stepRun.id = some old := sameId ▸ standing.held_current.1
  have ofRun := sameRun.trans standing.held_current.2
  have sameKey : stepRun.stepKey = old.stepKey := congrArg Prod.fst samePlace
  have sameOrder : stepRun.stepOrder = old.stepOrder := congrArg Prod.snd samePlace
  have others : ∀ other ∈ settled, stepRun.id ≠ other.id := fun other member same =>
    standing.ids_settled member (same.symm.trans sameId)
  refine ⟨rewrites.coherent standing.coherent held sameRun sameKey,
    rewrites.failingWrites.trans standing.writable, ?_, ?_, ?_, standing.passed, ?_, ?_, ?_⟩
  · rw [rewrites.runs]
    exact standing.held
  · rw [rewrites.stepRunsOf standing.coherent held sameRun sameOrder, standing.begun,
      List.map_append]
    congr 1
    · conv => rhs; rw [← List.map_id settled]
      apply List.map_congr_left
      intro other member
      rw [if_neg fun same => others other member same.symm]
      rfl
    · simp [sameId]
  · have places := standing.places
    rw [List.map_append] at places ⊢
    simpa [samePlace] using places
  · rw [standing.reports_settled rewrites sameId]
    exact standing.follows
  · intro first counted
    obtain ⟨next, ids⟩ := standing.numbered first counted
    rw [rewrites.freshId standing.coherent held]
    refine ⟨by simpa using next, fun index other found => ?_⟩
    rw [List.getElem?_append] at found
    by_cases inside : index < settled.length
    · rw [if_pos inside] at found
      exact ids index other (by rw [List.getElem?_append, if_pos inside, found])
    · rw [if_neg inside] at found
      have single : index - settled.length = 0 ∧ other = stepRun := by
        simpa [List.getElem?_cons, eq_comm] using found
      rw [single.2, sameId]
      exact ids index old (by rw [List.getElem?_append, if_neg inside, single.1]; rfl)
  · have here := rewrites.elsewhere held sameRun
    rw [ofRun] at here
    exact standing.elsewhere.trans here

theorem begin (standing : Standing norm origin run store settled none)
    (ordered : run.WellOrdered) {done rest : List Step} {step : Step}
    (split : run.orderedSteps = done ++ step :: rest) (atStep : done.length = settled.length)
    {created : StepRun} (fresh : created.id = store.freshId) (ofRun : created.runId = run.id)
    (place : created.place = step.place) :
    Standing norm origin run (store.putStepRun created) settled (some created) := by
  have unused : store.stepRuns.get? created.id = none := by rw [fresh, store.get?_freshId]
  have absent : store.stepRunOf? created.runId created.stepKey = none := by
    rw [ofRun, show created.stepKey = step.key from congrArg Prod.fst place]
    exact standing.stepRunOf?_next ordered split atStep
  have places : (settled ++ [created]).map StepRun.place <+: run.orderedSteps.map Step.place := by
    rw [List.map_append, standing.places_settled split atStep, split, List.map_append,
      List.prefix_append_right_inj]
    exact ⟨rest.map Step.place, by simp [place]⟩
  have begun : store.stepRunsOf run.id = settled := by simpa using standing.begun
  have ascending : (settled ++ [created]).Pairwise fun first second =>
      first.stepOrder < second.stepOrder := by
    have ofPlaces : ((settled ++ [created]).map StepRun.place).Pairwise
        fun first second => first.2 < second.2 := by
      refine List.Pairwise.sublist places.sublist ?_
      rw [List.pairwise_map]
      exact ordered.ascending
    rw [List.pairwise_map] at ofPlaces
    exact ofPlaces
  have ofHeld : store.runs.get? created.runId = some run := by rw [ofRun, standing.held]
  refine ⟨standing.coherent.putStepRun ofHeld unused absent, standing.writable, standing.held, ?_, places,
    standing.passed, standing.follows, ?_, ?_⟩
  · have appended := standing.coherent.stepRunsOf_putStepRun ofHeld unused absent
    rw [ofRun, begun] at appended
    exact appended ascending
  · intro first counted
    obtain ⟨next, ids⟩ := standing.numbered first counted
    rw [Option.toList_none, List.append_nil] at next ids
    rw [Store.freshId_putStepRun fresh, next]
    refine ⟨by simp [Nat.add_assoc], fun index other found => ?_⟩
    rw [List.getElem?_append] at found
    by_cases inside : index < settled.length
    · rw [if_pos inside] at found
      exact ids index other found
    · rw [if_neg inside] at found
      have single : index - settled.length = 0 ∧ other = created := by
        simpa [List.getElem?_cons, eq_comm] using found
      rw [single.2, fresh, next]
      omega
  · have here := Store.elsewhere_putStepRun unused
    rw [ofRun] at here
    exact standing.elsewhere.trans here

/-- The last step run is settled once it has passed. -/
theorem settle {stepRun : StepRun}
    (standing : Standing norm origin run store settled (some stepRun)) {done rest : List Step}
    {step : Step} (split : run.orderedSteps = done ++ step :: rest)
    (atStep : done.length = settled.length) (passed : stepRun.status = .passed)
    (passes : norm.passes (settled.map store.reportOf) step (store.reportOf stepRun)) :
    Standing norm origin run store (settled ++ [stepRun]) none := by
  refine ⟨standing.coherent, standing.writable, standing.held, ?_, ?_, ?_, ?_, ?_,
    standing.elsewhere⟩
  · simpa using standing.begun
  · simpa using standing.places
  · intro other member
    rcases List.mem_append.mp member with before | last
    · exact standing.passed other before
    · rw [List.mem_singleton.mp last]
      exact passed
  · rw [List.map_append, split]
    have follows := standing.follows
    rw [split] at follows
    exact follows.concat (by simpa using atStep) (by simpa using passes)
  · simpa using standing.numbered

/-- What happens elsewhere does not change how a run stands. -/
theorem of_elsewhere (standing : Standing norm origin run store settled current)
    (ordered : run.WellOrdered) (free : norm.numbering = none) {otherId : Uuid}
    (elsewhere : Elsewhere otherId store after) (other : otherId ≠ run.id)
    (coherent : after.Coherent) (writable : after.failingWrites = false) :
    Standing norm after run after settled current := by
  refine ⟨coherent, writable, ?_, ?_, standing.places, standing.passed, ?_, ?_, .refl _ _⟩
  · rw [elsewhere.runs run.id other.symm]
    exact standing.held
  · apply coherent.stepRunsOf_eq (standing.ascending ordered)
    intro stepRun
    rw [← standing.begun, standing.coherent.mem_stepRunsOf]
    apply and_congr_left
    intro ofRun
    exact (elsewhere.stepRuns _ _ (by rw [ofRun]; exact other.symm)).symm
  · have reports : settled.map after.reportOf = settled.map store.reportOf := by
      apply List.map_congr_left
      intro stepRun member
      obtain ⟨found, ofRun⟩ := standing.mem (List.mem_append_left _ member)
      rw [Store.reportOf, Store.issuesOf,
        elsewhere.findings _ _ found (by rw [ofRun]; exact other.symm)]
      rfl
    rw [reports]
    exact standing.follows
  · intro first counted
    rw [free] at counted
    cases counted

/-- Receipts of callbacks do not matter to how a run stands. -/
theorem withReceipts (standing : Standing norm origin run store settled current)
    (receipts : List String) :
    Standing norm (store.withReceipts receipts) run (store.withReceipts receipts) settled current :=
  ⟨standing.coherent.withReceipts receipts, standing.writable, standing.held, standing.begun,
    standing.places, standing.passed, standing.follows, standing.numbered, .refl _ _⟩

end Standing

end Vetting
