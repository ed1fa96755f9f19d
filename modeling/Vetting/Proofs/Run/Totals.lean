import Mathlib.Algebra.Order.BigOperators.Group.List
import Mathlib.Algebra.Order.Group.Nat
import Vetting.Proofs.Run.Files
import Vetting.Proofs.Run.Planning
import Vetting.Proofs.Run.Summaries
import Vetting.Proofs.Store.Places

/-!
Contract: the totals in the summary of a run add up.

Owns:
- `Store.Accountable`: each step run is that of a step of its run, with sound counters, and what
  requests make of such a store;
- that a store is accountable however many invocations take turns;
- `RunSummary.AddsUp`: a summary counts everything that is stored for its run, and nothing twice;
- that the summary of every run whose steps have keys of their own adds up.

Does not own: that the summary that is stored is the one that would be built
(`Vetting.Proofs.Run.Summaries`).

A summary goes from the steps of the run to their step runs by key, and from these to the findings by
identifier.  Whatever has no step, or shares one, would be lost or counted for another.

Counts have no bound here.  Where they are kept in a bounded width they are the same as long as they
fit.
-/

namespace Vetting

open Execution

/-! ### Step runs that are accounted for -/

namespace Store

/-- Runs have their planned steps.  Each step run is that of a step of its run, and has not counted
more failures than assertions.  There is one place for its findings. -/
structure Accountable (store : Store) (plan : Uuid → List Step) : Prop where
  plans : ∀ runId, store.planOf runId = plan runId
  planned : ∀ id stepRun, store.stepRuns.get? id = some stepRun →
    stepRun.stepKey ∈ (plan stepRun.runId).map Step.key
  sound : ∀ id stepRun, store.stepRuns.get? id = some stepRun → stepRun.output.Sound
  places : (store.findings.map Prod.fst).Nodup

variable {before after : Store} {request : StoreRequest} {notice? : Option Notice} {id : Uuid}
  {stepRun : StepRun} {plan : Uuid → List Step}

/-- Where a step run comes from that is there after a request: it has been there before, with its
output or another one that has just been written, or it has just been begun. -/
theorem Passes.origin (passes : before.Passes request notice? after)
    (held : after.stepRuns.get? id = some stepRun) :
    (∃ old, before.stepRuns.get? id = some old ∧
        (stepRun.output = old.output ∨ request = .updateStepRun stepRun)) ∨
      ∃ step now, request = .acquire stepRun.runId step now ∧ stepRun.stepKey = step.key ∧
        stepRun.output = .empty := by
  rw [passes.get?] at held
  cases passes with
  | same | changed | replaced | appended | receipted | found | read =>
    exact .inl ⟨stepRun, held, .inl rfl⟩
  | @created runId step now absent =>
    by_cases same : (StepRun.begun before.freshId runId step now).id = id
    · obtain rfl := Option.some.inj ((if_pos same).symm.trans held)
      exact .inr ⟨step, now, rfl, rfl, rfl⟩
    · exact .inl ⟨stepRun, (if_neg same).symm.trans held, .inl rfl⟩
  | @restarted old now after heldOld =>
    by_cases same : (Execution.restarted old now).id = id
    · obtain rfl := Option.some.inj ((if_pos same).symm.trans held)
      exact .inl ⟨old, same ▸ heldOld, .inl rfl⟩
    · exact .inl ⟨stepRun, (if_neg same).symm.trans held, .inl rfl⟩
  | @written changed old heldOld =>
    by_cases same : changed.id = id
    · obtain rfl := Option.some.inj ((if_pos same).symm.trans held)
      exact .inl ⟨old, same ▸ heldOld, .inr rfl⟩
    · exact .inl ⟨stepRun, (if_neg same).symm.trans held, .inl rfl⟩

/-- Beginning steps as planned and counting them soundly leaves a store accountable. -/
theorem Accountable.answer (accountable : before.Accountable plan) (coherent : before.Coherent)
    (request : StoreRequest) (plans : Plans plan (.store request))
    (keeps : before.Keeps (before.answer request).2) :
    (before.answer request).2.Accountable plan := by
  have follows := before.follows_answer request
  have passes := passes_answer coherent request
  refine ⟨fun runId => (follows.plans runId).trans (accountable.plans runId), ?_, ?_,
    follows.places accountable.places⟩
  -- A step run that has been there is still that of the same step; a new one is that of a planned step.
  · intro id stepRun held
    rcases passes.origin held with ⟨old, heldOld, _⟩ | ⟨step, now, rfl, isKey, _⟩
    · obtain ⟨same, heldSame, _, sameEntry⟩ := keeps id old heldOld
      obtain rfl := Option.some.inj (heldSame.symm.trans held)
      obtain ⟨sameRun, samePlace⟩ := Prod.mk.inj sameEntry
      rw [sameRun, (Prod.mk.inj samePlace).1]
      exact accountable.planned id old heldOld
    · rw [isKey]
      exact List.mem_map_of_mem plans
  · intro id stepRun held
    rcases passes.origin held with ⟨old, heldOld, same | rfl⟩ | ⟨_, _, _, _, isEmpty⟩
    · rw [same]
      exact accountable.sound id old heldOld
    · exact plans
    · rw [isEmpty]
      exact .empty

/-- The answers of an accountable store may be relied on. -/
theorem Accountable.answered (accountable : before.Accountable plan) (coherent : before.Coherent)
    (request : StoreRequest) : Planned plan (.store request) (before.answer request).1 := by
  cases request with
  | run id =>
    cases held : before.runs.get? id with
    | none =>
      rw [answer_run_missing held]
      trivial
    | some run =>
      rw [answer_run held]
      refine ⟨coherent.runIds id run held, ?_⟩
      rw [← accountable.plans, planOf, held]
      rfl
  | stepRun id =>
    cases held : before.stepRuns.get? id with
    | none =>
      simp only [Store.answer, Store.stepRun, held]
      trivial
    | some stepRun =>
      rw [answer_stepRun held]
      exact accountable.sound id stepRun held
  | _ => trivial

end Store

section Turns

variable {ι : Type} {mayAnswer : (request : Request) → request.Answer → Prop} {world after : World}
  {request : Request} {answer : request.Answer} {plan : Uuid → List Step}

theorem Store.Accountable.turn (accountable : world.store.Accountable plan)
    (coherent : world.store.Coherent) (plans : Plans plan request)
    (answers : world.Answers mayAnswer request answer after) (keeps : world.Keeps after) :
    Planned plan request answer ∧ after.store.Accountable plan := by
  cases request with
  | store request =>
    obtain ⟨rfl, rfl⟩ := answers
    exact ⟨accountable.answered coherent request, accountable.answer coherent request plans keeps⟩
  | log | stamp | validate | act | backendAvailable | launch =>
    obtain ⟨_, rfl⟩ := answers
    exact ⟨trivial, accountable⟩

/-- When nothing has begun everything is accounted for. -/
theorem Execution.World.Unbegun.accountable (unbegun : world.Unbegun) :
    world.store.Accountable world.store.planOf where
  plans := fun _ => rfl
  planned := by simp [unbegun.stepRuns, Table.get?]
  sound := by simp [unbegun.stepRuns, Table.get?]
  places := by simp [unbegun.findings]

/-- However many invocations take turns from when nothing has begun: the tables of the store agree,
findings are stored for the step runs that they name, and everything is accounted for. -/
theorem accountable_of_interleaves [DecidableEq ι] {equipment : Equipment}
    {invocations : ι → Invocation} {origin : World} {turns : List (Turn ι)}
    {rest : ι → Program Unit} (unbegun : origin.Unbegun)
    (interleaves : Interleaves mayAnswer (fun who => (invocations who).program equipment) origin
      turns rest world) :
    world.store.Coherent ∧ world.Recorded ∧ world.store.Accountable origin.store.planOf := by
  -- Planning has no memory, so the state of a program is what it has seen and what it has been told.
  let known := origin.store.HasRun
  let plan := origin.store.planOf
  have heeds : ∀ who, ((invocations who).program equipment).Heeds
      (((recordkeeping mayAnswer known).and (filing mayAnswer known)).and (planning plan))
      ((fun _ => ((Sight.blank, Register.blank), ())) who)
      ((fun _ _ _ => True : ι → Unit → _ → Prop) who) :=
    fun who => ((((invocations who).keepsRecords equipment).and
      ((invocations who).files equipment)).and ((invocations who).abides equipment)).imp
      fun _ _ _ => trivial
  have coherent := unbegun.coherent
  obtain ⟨states, ⟨interplay, filed, accountable⟩, _⟩ := interleaves.heeded heeds
    (fun states _ world => Interplay known (fun who => (states who).1.1) world ∧
      Filed (fun who => (states who).1.2) world ∧ world.store.Accountable plan)
    ⟨.start coherent, .start unbegun.findings unbegun.untold, unbegun.accountable⟩
    (fun states turns world who request answer after kept may answers => by
      obtain ⟨interplay, filed, accountable⟩ := kept
      obtain ⟨credible, does, interplayAfter⟩ := interplay.turn who may.1.1 answers
      obtain ⟨trusts, keeps, filedAfter⟩ := filed.turn interplay.coherent may.1.2 answers
        fun notice told => (told ▸ does).get?_told
      obtain ⟨planned, accountableAfter⟩ :=
        accountable.turn interplay.coherent may.2 answers keeps
      let state := (((states who).1.1.noting (request.notice? answer),
        (states who).1.2.noting request answer), ())
      have sights : (fun other => (Function.update states who state other).1.1) =
          Function.update (fun other => (states other).1.1) who state.1.1 :=
        Function.comp_update (Prod.fst ∘ Prod.fst) states who state
      have registers : (fun other => (Function.update states who state other).1.2) =
          Function.update (fun other => (states other).1.2) who state.1.2 :=
        Function.comp_update (Prod.snd ∘ Prod.fst) states who state
      refine ⟨state, ⟨⟨⟨credible, rfl⟩, credible, trusts, rfl⟩, planned⟩, ?_, ?_, accountableAfter⟩
      · rw [sights]
        exact interplayAfter
      · rw [registers]
        exact filedAfter)
    fun states turns world failing kept => by
      obtain ⟨interplay, filed, accountable⟩ := kept
      exact ⟨interplay.withFailing failing, filed.withFailing failing,
        accountable.plans, accountable.planned, accountable.sound, accountable.places⟩
  exact ⟨interplay.coherent, filed.recorded, accountable⟩

end Turns

/-! ### Findings of a run -/

namespace Execution.World

variable {world : World} {runId : Uuid} {stepRun : StepRun}

theorem Recorded.mem_findingsOf (recorded : world.Recorded) {id : Uuid} {finding : Finding}
    (member : finding ∈ world.store.findingsOf id) : finding.stepRunId = id := by
  cases held : world.store.findings.get? id with
  | none => simp [Store.findingsOf, held] at member
  | some findings =>
    obtain ⟨_, _, named⟩ := recorded id findings held
    simp only [Store.findingsOf, held, Option.getD_some] at member
    exact (named finding member).1

/-- The findings of a run that name a step run are those of this step run. -/
theorem Recorded.filter_findingsOfRun (recorded : world.Recorded) (coherent : world.store.Coherent)
    (member : stepRun ∈ world.store.stepRunsOf runId) :
    ((world.store.findingsOfRun runId).filter fun finding => finding.stepRunId = stepRun.id) =
      world.store.findingsOf stepRun.id := by
  have own : ∀ other ∈ world.store.stepRunsOf runId, other ≠ stepRun →
      ((world.store.findingsOf other.id).filter fun finding => finding.stepRunId = stepRun.id) =
        [] := by
    intro other isOther differ
    refine List.filter_eq_nil_iff.mpr fun finding isFinding named => differ ?_
    have sameId : other.id = stepRun.id :=
      (recorded.mem_findingsOf isFinding).symm.trans (of_decide_eq_true named)
    exact coherent.eq_of_id isOther member sameId
  rw [Store.findingsOfRun, List.filter_flatMap,
    flatMap_of_mem (coherent.nodup_stepRunsOf runId) member own, List.filter_eq_self]
  exact fun finding isFinding => decide_eq_true (recorded.mem_findingsOf isFinding)

/-- Going from the step runs of a run to their findings finds all that is stored for the run. -/
theorem Recorded.perm_findingsFor (recorded : world.Recorded) (coherent : world.store.Coherent)
    (places : (world.store.findings.map Prod.fst).Nodup) (runId : Uuid) :
    (world.store.findingsOfRun runId).Perm (world.store.findingsFor runId) := by
  let ids := (world.store.stepRunsOf runId).map StepRun.id
  have different : ids.Nodup := List.pairwise_map.mpr <|
    (coherent.nodup_stepRunsOf runId).imp_of_mem fun isFirst isSecond differ sameId =>
      differ (coherent.eq_of_id isFirst isSecond sameId)
  -- What is stored for a step run names the run of that step run, so all of it counts or none.
  have kept : ∀ entry ∈ world.store.findings,
      (entry.2.filter fun finding => finding.runId = runId) = if entry.1 ∈ ids then entry.2 else [] := by
    rintro ⟨id, findings⟩ member
    obtain ⟨stepRun, held, named⟩ := recorded id findings (Table.get?_of_mem places member)
    obtain rfl := coherent.stepRunIds _ _ held
    by_cases ofRun : stepRun.runId = runId
    · have wanted : stepRun.id ∈ ids :=
        List.mem_map_of_mem (coherent.mem_stepRunsOf.mpr ⟨held, ofRun⟩)
      rw [if_pos wanted, List.filter_eq_self]
      exact fun finding isFinding => decide_eq_true ((named finding isFinding).2.trans ofRun)
    · have unwanted : stepRun.id ∉ ids := by
        intro wanted
        obtain ⟨other, isOther, sameId⟩ := List.mem_map.mp wanted
        obtain ⟨heldOther, ofOther⟩ := coherent.mem_stepRunsOf.mp isOther
        rw [sameId, held] at heldOther
        exact ofRun (Option.some.inj heldOther ▸ ofOther)
      rw [if_neg unwanted, List.filter_eq_nil_iff]
      exact fun finding isFinding ofThis =>
        ofRun ((named finding isFinding).2.symm.trans (of_decide_eq_true ofThis))
  have stored : world.store.findingsFor runId =
      world.store.findings.flatMap fun entry => if entry.1 ∈ ids then entry.2 else [] := by
    rw [Store.findingsFor, Table.values, ← List.flatMap_def, List.filter_flatMap]
    exact List.flatMap_congr kept
  have found : world.store.findingsOfRun runId =
      ids.flatMap fun id => (world.store.findings.get? id).getD [] := by
    rw [List.flatMap_map]
    rfl
  rw [stored, found]
  exact Table.perm_lookups places different

end Execution.World

/-! ### Summaries -/

/-- The key and the order of the step that a summary is about. -/
def StepSummary.place (step : StepSummary) : String × Int := (step.stepKey, step.stepOrder)

/-- A summary has a place for every step of a run, and counts everything that a store has for the run
once. -/
structure RunSummary.AddsUp (summary : RunSummary) (run : Run) (store : Store) : Prop where
  listed : (summary.steps.map StepSummary.place).Perm (run.steps.map Step.place)
  ascending : summary.steps.Pairwise fun first second => first.stepOrder ≤ second.stepOrder
  /-- The findings of a step are counted in its place. -/
  placed : ∀ stepRun ∈ store.stepRunsOf run.id, ∃ step ∈ summary.steps,
    step.stepKey = stepRun.stepKey ∧ ∀ severity, step.findings.count severity =
      (store.findingsOf stepRun.id).countP fun finding => finding.severity = severity
  counted : ∀ severity, summary.severity.count severity =
    (store.findingsFor run.id).countP fun finding => finding.severity = severity
  gathered : ∀ severity, summary.severity.count severity =
    (summary.steps.map fun step => step.findings.count severity).sum
  unsuccessful : summary.totalFindings =
    (store.findingsFor run.id).countP fun finding => finding.severity ≠ .success
  all : summary.totalFindings + summary.severity.success = summary.severity.total
  assertions : summary.assertionTotal =
    ((store.stepRunsOf run.id).map fun stepRun => stepRun.output.assertionTotal).sum
  failures : summary.assertionFailures =
    ((store.stepRunsOf run.id).map fun stepRun => stepRun.output.assertionFailures).sum
  passes : summary.assertionPasses + summary.assertionFailures = summary.assertionTotal

/-- The steps of a run, if they have keys of their own, lead to each of its step runs once. -/
theorem Store.Accountable.perm_stepRunsOf {store : Store} {run : Run} {plan : Uuid → List Step}
    (accountable : store.Accountable plan) (coherent : store.Coherent)
    (held : store.runs.get? run.id = some run) (distinct : (run.steps.map Step.key).Nodup) :
    (run.orderedSteps.filterMap fun step => store.stepRunOf? run.id step.key).Perm
      (store.stepRunsOf run.id) := by
  have inOrder : (run.orderedSteps.map Step.key).Perm (run.steps.map Step.key) :=
    (Run.perm_inOrder run.steps).map Step.key
  refine coherent.perm_stepRunsOf (inOrder.nodup_iff.mpr distinct) fun stepRun member => ?_
  obtain ⟨heldStep, ofRun⟩ := coherent.mem_stepRunsOf.mp member
  have ofPlan : plan stepRun.runId = run.steps := by
    rw [← accountable.plans, Store.planOf, ofRun, held]
    rfl
  rw [inOrder.mem_iff, ← ofPlan]
  exact accountable.planned _ stepRun heldStep

section Summaries

variable {world : World} {run : Run}

namespace Execution.World

/-- The summary of a run that is built in a world at a given moment. -/
def summaryOf (world : World) (run : Run) (now : Timestamp) : RunSummary :=
  Execution.summaryOf run (world.store.stepRunsOf run.id) (world.store.findingsOfRun run.id) now

/-- What a summary says in a world about a step of a run. -/
def summaryOfStep (world : World) (runId : Uuid) (step : Step) : StepSummary :=
  stepSummary step (world.store.stepRunsOf runId) (world.store.findingsOfRun runId)

theorem steps_summaryOf (world : World) (run : Run) (now : Timestamp) :
    (world.summaryOf run now).steps = run.orderedSteps.map (world.summaryOfStep run.id) := rfl

theorem count_summaryOf (world : World) (run : Run) (now : Timestamp) (severity : Severity) :
    (world.summaryOf run now).severity.count severity =
      ((world.summaryOf run now).steps.map fun step => step.findings.count severity).sum := by
  have added : (world.summaryOf run now).severity =
      ((world.summaryOf run now).steps.map StepSummary.findings).foldl .plus .zero := rfl
  rw [added, SeverityCounts.count_foldl_plus, SeverityCounts.count_zero, Nat.zero_add, List.map_map]
  rfl

/-- The findings of a step are those of the step run that its key leads to. -/
theorem count_summaryOfStep (coherent : world.store.Coherent) (recorded : world.Recorded)
    (runId : Uuid) (step : Step) (severity : Severity) :
    (world.summaryOfStep runId step).findings.count severity =
      ((world.store.stepRunOf? runId step.key).map fun stepRun =>
        (world.store.findingsOf stepRun.id).countP fun finding =>
          finding.severity = severity).getD 0 := by
  rw [summaryOfStep, stepSummary, coherent.find?_stepRunsOf]
  cases found : world.store.stepRunOf? runId step.key with
  | none => exact SeverityCounts.count_zero severity
  | some stepRun =>
    have member := (coherent.stepRunOf?_eq_some.mp found).1
    simp only [Option.map_some, Option.getD_some]
    rw [recorded.filter_findingsOfRun coherent member, SeverityCounts.count_of, count_severities]

variable (lookUps : (run.orderedSteps.filterMap fun step =>
  world.store.stepRunOf? run.id step.key).Perm (world.store.stepRunsOf run.id)) (now : Timestamp)
include lookUps

/-- What is added up over the steps of a summary has been added up over the step runs. -/
theorem sum_summaryOf {entry : StepSummary → Nat} {size : StepRun → Nat}
    (isSize : ∀ step, entry (world.summaryOfStep run.id step) =
      ((world.store.stepRunOf? run.id step.key).map size).getD 0) :
    ((world.summaryOf run now).steps.map entry).sum =
      ((world.store.stepRunsOf run.id).map size).sum := by
  rw [steps_summaryOf, List.map_map, ← sum_map_find? lookUps size]
  exact congrArg List.sum (List.map_congr_left fun step _ => isSize step)

/-- The findings of a run are counted once. -/
theorem severity_summaryOf (coherent : world.store.Coherent) (recorded : world.Recorded) :
    (world.summaryOf run now).severity =
      .of ((world.store.findingsOfRun run.id).map Finding.severity) := by
  refine SeverityCounts.eq_of_count fun severity => ?_
  rw [count_summaryOf, SeverityCounts.count_of, count_severities, Store.findingsOfRun,
    List.countP_flatMap]
  exact sum_summaryOf lookUps now fun step =>
    count_summaryOfStep coherent recorded run.id step severity

theorem assertionTotal_summaryOf (coherent : world.store.Coherent) :
    (world.summaryOf run now).assertionTotal = ((world.store.stepRunsOf run.id).map fun stepRun =>
      stepRun.output.assertionTotal).sum := by
  refine List.sum_eq_foldl_nat.symm.trans (sum_summaryOf lookUps now fun step => ?_)
  rw [summaryOfStep, stepSummary, coherent.find?_stepRunsOf]

theorem assertionFailures_summaryOf (coherent : world.store.Coherent) :
    (world.summaryOf run now).assertionFailures =
      ((world.store.stepRunsOf run.id).map fun stepRun =>
        stepRun.output.assertionFailures).sum := by
  refine List.sum_eq_foldl_nat.symm.trans (sum_summaryOf lookUps now fun step => ?_)
  rw [summaryOfStep, stepSummary, coherent.find?_stepRunsOf]

end Execution.World

/-- The summary of a run whose steps have keys of their own adds up if the store is accountable. -/
theorem Execution.World.summaryOf_addsUp (coherent : world.store.Coherent)
    (recorded : world.Recorded) {plan : Uuid → List Step}
    (accountable : world.store.Accountable plan) (held : world.store.runs.get? run.id = some run)
    (distinct : (run.steps.map Step.key).Nodup) (now : Timestamp) :
    (world.summaryOf run now).AddsUp run world.store := by
  have lookUps := accountable.perm_stepRunsOf coherent held distinct
  have stored := recorded.perm_findingsFor coherent accountable.places run.id
  have severities := severity_summaryOf lookUps now coherent recorded
  have assertions := assertionTotal_summaryOf lookUps now coherent
  have failures := assertionFailures_summaryOf lookUps now coherent
  have total : (world.summaryOf run now).totalFindings =
    (world.summaryOf run now).severity.total - (world.summaryOf run now).severity.success := rfl
  have passes : (world.summaryOf run now).assertionPasses =
    (world.summaryOf run now).assertionTotal - (world.summaryOf run now).assertionFailures := rfl
  constructor
  case listed =>
    rw [steps_summaryOf, List.map_map]
    exact (Run.perm_inOrder run.steps).map Step.place
  case ascending =>
    rw [steps_summaryOf]
    exact List.pairwise_map.mpr run.sorted_orderedSteps
  case placed =>
    intro stepRun member
    obtain ⟨step, isStep, found⟩ := List.mem_filterMap.mp (lookUps.mem_iff.mpr member)
    refine ⟨world.summaryOfStep run.id step, List.mem_map_of_mem isStep, ?_, fun severity => ?_⟩
    · exact (coherent.stepRunOf?_eq_some.mp found).2.symm
    · rw [count_summaryOfStep coherent recorded, found]
      rfl
  case counted =>
    intro severity
    rw [severities, SeverityCounts.count_of, count_severities, stored.countP_eq]
  case gathered => exact world.count_summaryOf run now
  case unsuccessful =>
    rw [total, severities, SeverityCounts.total_sub_success, List.countP_map, ← stored.countP_eq]
    rfl
  case all => rw [total, Nat.sub_add_cancel (SeverityCounts.success_le_total _)]
  case assertions => exact assertions
  case failures => exact failures
  case passes =>
    have failed : (world.summaryOf run now).assertionFailures ≤
        (world.summaryOf run now).assertionTotal := by
      rw [assertions, failures]
      refine List.sum_le_sum fun stepRun member => ?_
      exact (accountable.sound _ stepRun (coherent.mem_stepRunsOf.mp member).1).failures_le
    rw [passes, Nat.sub_add_cancel failed]

/-- However many invocations take turns from when nothing has begun: the summary of every run whose
steps have keys of their own can be built, and it adds up. -/
theorem addsUp_of_interleaves {ι : Type} [DecidableEq ι]
    {mayAnswer : (request : Request) → request.Answer → Prop} {equipment : Equipment}
    {invocations : ι → Invocation} {origin : World} {turns : List (Turn ι)}
    {rest : ι → Program Unit} (unbegun : origin.Unbegun)
    (interleaves : Interleaves mayAnswer (fun who => (invocations who).program equipment) origin
      turns rest world) (held : world.store.runs.get? run.id = some run)
    (distinct : (run.steps.map Step.key).Nodup) (surroundings : Surroundings) :
    ∃ summary, (World.runJob surroundings (buildSummary run.id) world).1 = .ok summary ∧
      summary.AddsUp run world.store := by
  obtain ⟨coherent, recorded, accountable⟩ := accountable_of_interleaves unbegun interleaves
  obtain ⟨_, runs⟩ := World.runs_runJob surroundings (buildSummary run.id) world
  obtain ⟨_, built, now, rfl⟩ := runs.succeeds (ensures_buildSummary held)
  exact ⟨_, built, World.summaryOf_addsUp coherent recorded accountable held distinct now⟩

end Summaries

/-! ### A step that has been taken twice -/

namespace Example

open Execution

/-- The run in which the second execution has taken up the step of the first one: its summary has both
steps, and the one finding. -/
theorem addsUp_recovering : world.Unbegun ∧ ∃ kept : Run,
    recovering.2.2.store.runs.get? kept.id = some kept ∧ (kept.steps.map Step.key).Nodup ∧
    ∃ summary, (World.runJob (surroundings silent) (buildSummary kept.id) recovering.2.2).1 =
        .ok summary ∧ summary.AddsUp kept recovering.2.2.store ∧
      summary.steps.length = 2 ∧ summary.totalFindings = 1 := by
  obtain ⟨kept, held, isId, isSteps⟩ : ∃ kept, recovering.2.2.store.runs.get? run.id = some kept ∧
    kept.id = run.id ∧ kept.steps = run.steps := ⟨_, rfl, rfl, rfl⟩
  have stored : recovering.2.2.store.findingsFor run.id = recovering.2.2.store.findingsOf stepId :=
    rfl
  rw [← isId] at held stored
  have distinct : (kept.steps.map Step.key).Nodup := by
    rw [isSteps]
    exact (Run.wellOrdered_fresh distinct_steps _ _ _ _).keys
  obtain ⟨summary, built, addsUp⟩ := addsUp_of_interleaves unbegun_origin interleaves_recovering held
    distinct (surroundings silent)
  refine ⟨unbegun_origin, kept, held, distinct, summary, built, addsUp, ?_, ?_⟩
  · have length := addsUp.listed.length_eq
    rw [List.length_map, List.length_map, isSteps] at length
    exact length.trans (Run.perm_inOrder steps).length_eq
  · rw [addsUp.unsuccessful, stored]
    decide

end Example

end Vetting
