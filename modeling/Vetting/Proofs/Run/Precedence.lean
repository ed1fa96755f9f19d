import Mathlib.Data.List.Nodup
import Vetting.Proofs.Run.Calling

/-!
Contract: later steps make no difference to earlier ones.

Owns:
- `Surroundings.Blind`: plug-ins and a backend that do not look at identifiers, and the judge
  that their answers make;
- what is there of a run below an order, and what a step sees of it;
- that two runs agree below an order if their steps and callbacks do.

Does not own: how a run gets there (`Vetting.Proofs.Run.Taking`, `Vetting.Proofs.Run.Calling`).
-/

namespace Vetting

open Execution
open Scope (Signals)

/-! ### Surroundings that do not look at identifiers -/

/-- What is answered about the work does not rest on identifiers. -/
structure Execution.Surroundings.Blind (surroundings : Surroundings) : Prop where
  act : ∀ type context runId,
    surroundings.act type { context with runId := runId } = surroundings.act type context
  launch : ∀ job runId stepRunId idempotencyKey,
    told (surroundings.launch { job with
      runId := runId, stepRunId := stepRunId, idempotencyKey := idempotencyKey }) =
      told (surroundings.launch job)

/-- What surroundings answer about the steps of a run. -/
def Execution.Surroundings.blindReplies (surroundings : Surroundings) (submission : Submission) :
    Replies where
  validate validator := surroundings.validate validator submission
  act earlier step type params :=
    surroundings.act type ⟨.zero, step.key, params, submission, signalsOf earlier⟩
  backendAvailable := surroundings.backendAvailable
  launch _ step validator external := surroundings.launch {
    runId := .zero, stepRunId := .zero, stepKey := step.key, attempt := 1
    validatorType := validator.type, config := external.jobConfig validator
    fileType := submission.fileType, input := submission.content, idempotencyKey := "" }

/-- The judge that the answers of surroundings make. -/
def Execution.Surroundings.judge (surroundings : Surroundings) (equipment : Equipment)
    (submission : Submission) : Judge :=
  (surroundings.blindReplies submission).judge equipment submission

section Blind

variable {surroundings : Surroundings}

theorem Execution.Surroundings.Blind.fixed (blind : surroundings.Blind) (runId : Uuid)
    (submission : Submission) :
    (surroundings.blindReplies submission).Fixed surroundings.answers runId submission where
  validate := fun _ _ answered => answered
  act := fun _ _ _ _ _ answered => answered.trans (blind.act _ _ _).symm
  backendAvailable := fun _ answered => answered

/-- New steps come to what blind surroundings make of them in any run. -/
theorem Execution.Surroundings.Blind.decides (blind : surroundings.Blind)
    (equipment : Equipment) (runId : Uuid) (submission : Submission) :
    (surroundings.judge equipment submission).Decides surroundings.answers equipment runId
      submission := by
  intro context earlier conclusion ofRun sameSubmission sameSignals empty once concluded
  rcases (surroundings.blindReplies submission).concludes (blind.fixed runId submission) ofRun
    sameSubmission sameSignals (Or.inl empty) concluded with
    ⟨_, rfl⟩ | ⟨available, validator, ruleset, external, answer, isJob, answered, rfl⟩
  · rfl
  · have sameAnswer : told answer = told
        ((surroundings.blindReplies submission).launch earlier context.step validator external) := by
      obtain rfl : answer = _ := answered
      rw [jobRequest, once, sameSubmission]
      exact (blind.launch _ .zero .zero "").symm
    exact Replies.erased_ofLaunch _ submission earlier isJob available context.stepRun sameAnswer

theorem Execution.Surroundings.waitsForJobs (surroundings : Surroundings) (equipment : Equipment)
    (submission : Submission) :
    (surroundings.judge equipment submission).WaitsForJobs equipment := by
  intro earlier step output issues pending
  obtain ⟨validator, ruleset, external, _, isJob, _⟩ := Replies.judge_eq_pending pending
  exact ⟨validator, ruleset, external, isJob⟩

end Blind

/-! ### What there is below an order -/

/-- The reports of a run, as far as they are of steps below an order. -/
def Store.reportsBelow (store : Store) (runId : Uuid) (order : Int) : List StepReport :=
  ((store.stepRunsOf runId).map store.reportOf).filter fun report => report.order < order

/-- The signals before an order are those of the steps below it. -/
theorem Store.signalsBefore_eq (store : Store) (runId : Uuid) (order : Int) :
    store.signalsBefore runId order = signalsOf (store.reportsBelow runId order) := by
  unfold signalsBefore signalsOf reportsBelow
  rw [List.filter_filter, List.filter_map, List.map_map]
  congr 2
  exact List.filter_congr fun stepRun _ => Bool.and_comm _ _

theorem Execution.World.runJob_collectSignals (surroundings : Surroundings) (runId : Uuid)
    (order : Int) (world : World) :
    (runJob surroundings (collectSignals runId order) world).1 =
      .ok (signalsOf (world.store.reportsBelow runId order)) := by
  rw [← Store.signalsBefore_eq]
  rfl

/-- Two runs have the same reports of steps below an order, and their steps up to it see the same
signals, which are those of lower steps only. -/
structure AlikeBelow (surroundings : Surroundings) (order : Int) (runId : Uuid) (world : World)
    (otherId : Uuid) (other : World) : Prop where
  reports : other.store.reportsBelow otherId order = world.store.reportsBelow runId order
  seen : ∀ before ≤ order,
    (World.runJob surroundings (collectSignals runId before) world).1 =
      .ok (signalsOf (world.store.reportsBelow runId before)) ∧
    (World.runJob surroundings (collectSignals otherId before) other).1 =
      .ok (signalsOf (world.store.reportsBelow runId before))

theorem AlikeBelow.of_reports (surroundings : Surroundings) {order : Int} {runId otherId : Uuid}
    {world other : World}
    (reports : other.store.reportsBelow otherId order = world.store.reportsBelow runId order) :
    AlikeBelow surroundings order runId world otherId other where
  reports := reports
  seen := by
    have lower : ∀ (store : Store) id, ∀ before ≤ order, store.reportsBelow id before =
        (store.reportsBelow id order).filter fun report => report.order < before := by
      intro store id before within
      rw [Store.reportsBelow, Store.reportsBelow, List.filter_filter]
      congr 1
      funext report
      rw [← Bool.decide_and, decide_eq_decide]
      omega
    intro before within
    refine ⟨World.runJob_collectSignals _ _ _ _, ?_⟩
    rw [World.runJob_collectSignals, lower _ _ before within, lower _ _ before within, reports]

/-! ### Steps below an order -/

namespace Run

variable {run other : Run}

/-- The steps below an order come before the others. -/
theorem WellOrdered.splitAt (ordered : run.WellOrdered) (order : Int) :
    run.orderedSteps = run.orderedSteps.filter (fun step => step.order < order) ++
      run.orderedSteps.filter fun step => order ≤ step.order := by
  obtain ⟨done, split, below⟩ := ordered.from order
  have early : run.orderedSteps.filter (fun step => step.order < order) = done := by
    rw [split, List.filter_append, List.filter_filter,
      List.filter_eq_self.mpr fun step member => by simpa using below step member,
      List.filter_eq_nil_iff.mpr, List.append_nil]
    intro step _
    simp only [Bool.and_eq_true, decide_eq_true_eq]
    omega
  rw [early]
  exact split

/-- Runs with the same steps below an order take them in the same order. -/
theorem WellOrdered.filter_orderedSteps (ordered : run.WellOrdered)
    (otherOrdered : other.WellOrdered) {order : Int} (same : (run.steps.filter fun step => step.order < order).Perm
      (other.steps.filter fun step => step.order < order)) :
    run.orderedSteps.filter (fun step => step.order < order) =
      other.orderedSteps.filter fun step => step.order < order := by
  have permuted : (run.orderedSteps.filter fun step => step.order < order).Perm
      (other.orderedSteps.filter fun step => step.order < order) :=
    (((perm_inOrder run.steps).filter _).trans same).trans
      ((perm_inOrder other.steps).filter _).symm
  refine permuted.eq_of_pairwise ?_ (ordered.ascending.filter _) (otherOrdered.ascending.filter _)
  intro first second _ _ less greater
  omega

end Run

/-! ### Two runs with the same steps below an order -/

/-- Which callbacks are for steps below an order is a matter of these steps. -/
theorem callsBelow_congr {order : Int} {steps others : List Step}
    (same : (steps.filter fun step => step.order < order).Perm
      (others.filter fun step => step.order < order)) (calls : List Call) :
    callsBelow order steps calls = callsBelow order others calls := by
  refine List.filter_congr fun call _ => Bool.eq_iff_iff.mpr ?_
  have early : ∀ step,
      step ∈ steps ∧ step.order < order ↔ step ∈ others ∧ step.order < order := by
    intro step
    simpa using same.mem_iff (a := step)
  simp only [List.any_eq_true, decide_eq_true_eq]
  constructor
  · rintro ⟨step, member, key, below⟩
    exact ⟨step, ((early step).mp ⟨member, below⟩).1, key, below⟩
  · rintro ⟨step, member, key, below⟩
    exact ⟨step, ((early step).mpr ⟨member, below⟩).1, key, below⟩

/-- Taking the callbacks for steps below an order twice makes no difference. -/
theorem callsBelow_callsBelow (order : Int) (steps : List Step) (calls : List Call) :
    callsBelow order steps (callsBelow order steps calls) = callsBelow order steps calls := by
  rw [callsBelow, callsBelow, List.filter_filter]
  simp only [Bool.and_self]

section Agreement

variable {judge first : Judge} {surroundings : Surroundings} {equipment : Equipment}
  {submission : Submission} {run other : Run} {store after : Store} {calls otherCalls : List Call}
  {order : Int}

/-- The reports below an order are those of the course of the steps below it. -/
theorem Travels.reportsBelow (travels : Travels first judge submission run store)
    (ordered : run.WellOrdered) (order : Int) :
    store.reportsBelow run.id order =
      (course judge [] (run.orderedSteps.filter fun step => step.order < order)).reports := by
  have below : ∀ step ∈ run.orderedSteps.filter (fun step => step.order < order),
      step.order < order := fun step member => of_decide_eq_true (List.mem_filter.mp member).2
  have above : ∀ step ∈ run.orderedSteps.filter (fun step => order ≤ step.order),
      order ≤ step.order := fun step member => of_decide_eq_true (List.mem_filter.mp member).2
  rw [← course_append_below below above, ← ordered.splitAt order, Store.reportsBelow,
    travels.reports]

/-- Two runs have the same reports below an order if their steps below it are the same, and so are
the callbacks for them. -/
theorem Travels.agree
    (travels : Travels first (first.informed equipment calls) submission run store)
    (others : Travels first (first.informed equipment otherCalls) submission other after)
    (ordered : run.WellOrdered) (otherOrdered : other.WellOrdered)
    (same : (run.steps.filter fun step => step.order < order).Perm
      (other.steps.filter fun step => step.order < order))
    (sameCalls : callsBelow order other.steps otherCalls = callsBelow order run.steps calls) :
    after.reportsBelow other.id order = store.reportsBelow run.id order := by
  have early := ordered.filter_orderedSteps otherOrdered same
  rw [travels.reportsBelow ordered, others.reportsBelow otherOrdered, ← early]
  refine congrArg Course.reports (course_congr fun earlier step member => Judge.informed_congr ?_)
  have inOther := member
  rw [early] at inOther
  obtain ⟨isStep, isBelow⟩ := List.mem_filter.mp member
  have below := of_decide_eq_true isBelow
  have isOther := (List.mem_filter.mp inOther).1
  calc reported? otherCalls step.key
      = reported? (callsBelow order other.steps otherCalls) step.key :=
        (reported?_callsBelow (Run.mem_orderedSteps.mp isOther) below).symm
    _ = reported? (callsBelow order run.steps calls) step.key := by rw [sameCalls]
    _ = reported? calls step.key := reported?_callsBelow (Run.mem_orderedSteps.mp isStep) below

end Agreement

/-- With blind surroundings, a run that has been called travels as the judge of the surroundings
has it that the callbacks inform. -/
theorem Execution.Surroundings.Blind.travels {surroundings : Surroundings}
    (blind : surroundings.Blind) (equipment : Equipment) {steps : List Step}
    (distinct : DistinctSteps steps) (submission : Submission) (id workflowId : Uuid)
    (now : Timestamp) {origin world : World} {calls : List Call}
    (unbegun : origin.store.Unbegun (.fresh id workflowId submission.id steps now))
    (submitted : origin.store.submissions.get? submission.id = some submission)
    (called : Called surroundings equipment id origin calls world) :
    Travels (surroundings.judge equipment submission)
      ((surroundings.judge equipment submission).informed equipment calls) submission
      (.fresh id workflowId submission.id steps now) world.store :=
  travels_of_called (Run.wellOrdered_fresh distinct id workflowId submission.id now) rfl rfl unbegun
    submitted (blind.decides equipment id submission)
    (surroundings.waitsForJobs equipment submission) called

/-- A further callback for a step counts below an order if the step does. -/
theorem callsBelow_concat {steps : List Step} (distinct : DistinctSteps steps) (order : Int)
    (calls : List Call) {call : Call} {step : Step} (member : step ∈ steps)
    (key : call.stepKey = step.key) :
    callsBelow order steps (calls ++ [call]) =
      if step.order < order then callsBelow order steps calls ++ [call]
      else callsBelow order steps calls := by
  have counts : (∃ other ∈ steps, other.key = call.stepKey ∧ other.order < order) ↔
      step.order < order := by
    constructor
    · rintro ⟨other, isOther, sameKey, below⟩
      rw [List.inj_on_of_nodup_map distinct.keys isOther member (sameKey.trans key)] at below
      exact below
    · exact fun below => ⟨step, member, key.symm, below⟩
  rw [callsBelow, List.filter_append]
  by_cases below : step.order < order
  · simp [callsBelow, counts, below]
  · simp [callsBelow, counts, below]

/-- If runs agree below an order whenever they have taken in the same callbacks for steps below it,
the callbacks for such steps of one run can be made for the other one. -/
theorem exists_called_below {surroundings : Surroundings} {equipment : Equipment} {order : Int}
    {steps : List Step} {id otherId : Uuid} {origin otherOrigin world : World} {calls : List Call}
    (distinct : DistinctSteps steps)
    (placed : ∀ calls world, Called surroundings equipment id origin calls world →
      ∀ stepRun ∈ world.store.stepRunsOf id, ∃ step ∈ steps, stepRun.place = step.place)
    (agree : ∀ calls world other, Called surroundings equipment id origin calls world →
      Called surroundings equipment otherId otherOrigin (callsBelow order steps calls) other →
      other.store.reportsBelow otherId order = world.store.reportsBelow id order)
    (called : Called surroundings equipment id origin calls world) :
    ∃ other, Called surroundings equipment otherId otherOrigin (callsBelow order steps calls)
      other := by
  induction called with
  | begun => exact ⟨_, .begun⟩
  | @answered calls world stepRun key? earlier envelope member running _ _ inductionHypothesis =>
    obtain ⟨other, otherCalled⟩ := inductionHypothesis
    obtain ⟨step, isStep, place⟩ := placed _ _ earlier stepRun member
    have stepOrder : stepRun.stepOrder = step.order := congrArg Prod.snd place
    rw [callsBelow_concat distinct order calls isStep (congrArg Prod.fst place)]
    by_cases below : step.order < order
    · -- The other run has the same report of the step, which is at work there too.
      have inside : world.store.reportOf stepRun ∈ other.store.reportsBelow otherId order := by
        rw [agree _ _ _ earlier otherCalled, Store.reportsBelow, List.mem_filter]
        rw [← stepOrder] at below
        exact ⟨List.mem_map_of_mem member, decide_eq_true below⟩
      obtain ⟨twin, isTwin, sameReport⟩ := List.mem_map.mp (List.mem_filter.mp inside).1
      have key : twin.stepKey = stepRun.stepKey := congrArg StepReport.key sameReport
      have status : twin.status = stepRun.status := congrArg StepReport.status sameReport
      rw [if_pos below, ← key]
      exact ⟨_, .answered otherCalled envelope isTwin (status.trans running) (Or.inl rfl)
        fun _ no => nomatch no⟩
    · rw [if_neg below]
      exact ⟨other, otherCalled⟩

/-- Later steps never influence earlier ones.  If the steps of two workflows are the same below an
order, the callbacks that one run has taken in for them can be made for the other run too.  And
whenever both runs have taken in the same ones, they have the same reports of the steps below the
order, and their steps up to it see the same signals. -/
theorem early_steps_agree {surroundings : Surroundings} (blind : surroundings.Blind)
    (equipment : Equipment) (order : Int) {steps others : List Step}
    (distinct : DistinctSteps steps) (otherDistinct : DistinctSteps others)
    (same : (steps.filter fun step => step.order < order).Perm
      (others.filter fun step => step.order < order))
    (submission : Submission) (id otherId workflowId otherWorkflowId : Uuid)
    (now otherNow : Timestamp) {origin otherOrigin : World}
    (unbegun : origin.store.Unbegun (.fresh id workflowId submission.id steps now))
    (submitted : origin.store.submissions.get? submission.id = some submission)
    (otherUnbegun : otherOrigin.store.Unbegun
      (.fresh otherId otherWorkflowId submission.id others otherNow))
    (otherSubmitted : otherOrigin.store.submissions.get? submission.id = some submission)
    {calls : List Call} {world : World}
    (called : Called surroundings equipment id origin calls world) :
    (∃ other, Called surroundings equipment otherId otherOrigin (callsBelow order steps calls)
      other) ∧
    ∀ otherCalls other, Called surroundings equipment otherId otherOrigin otherCalls other →
      callsBelow order others otherCalls = callsBelow order steps calls →
      AlikeBelow surroundings order id world otherId other := by
  have ordered := Run.wellOrdered_fresh distinct id workflowId submission.id now
  have otherOrdered :=
    Run.wellOrdered_fresh otherDistinct otherId otherWorkflowId submission.id otherNow
  have sameSteps : ((Run.inOrder steps).filter fun step => step.order < order).Perm
      ((Run.inOrder others).filter fun step => step.order < order) :=
    (((Run.perm_inOrder steps).filter _).trans same).trans ((Run.perm_inOrder others).filter _).symm
  have agree : ∀ calls world otherCalls other, Called surroundings equipment id origin calls world →
      Called surroundings equipment otherId otherOrigin otherCalls other →
      callsBelow order others otherCalls = callsBelow order steps calls →
      other.store.reportsBelow otherId order = world.store.reportsBelow id order := by
    intro calls world otherCalls other called otherCalled sameCalls
    have travels := blind.travels equipment distinct submission id workflowId now unbegun
      submitted called
    have otherTravels := blind.travels equipment otherDistinct submission otherId
      otherWorkflowId otherNow otherUnbegun otherSubmitted otherCalled
    refine travels.agree otherTravels ordered otherOrdered sameSteps ?_
    change callsBelow order (Run.inOrder others) otherCalls =
      callsBelow order (Run.inOrder steps) calls
    rw [callsBelow_congr ((Run.perm_inOrder others).filter _), sameCalls,
      callsBelow_congr ((Run.perm_inOrder steps).filter _)]
  refine ⟨exists_called_below distinct ?_ ?_ called, fun otherCalls other otherCalled sameCalls =>
    .of_reports surroundings (agree _ _ _ _ called otherCalled sameCalls)⟩
  · intro calls world called stepRun member
    have travels := blind.travels equipment distinct submission id workflowId now unbegun
      submitted called
    obtain ⟨step, isStep, place⟩ := travels.exists_step member
    exact ⟨step, (Run.perm_inOrder steps).mem_iff.mp (Run.mem_orderedSteps.mp isStep), place⟩
  · intro calls world other called otherCalled
    refine agree _ _ _ _ called otherCalled ?_
    rw [callsBelow_congr same, callsBelow_callsBelow]

/-! ### A run with and without its second step -/

namespace Example

theorem blind_surroundings (response : JobResponse) : (surroundings response).Blind :=
  ⟨fun _ _ _ => rfl, fun _ _ _ _ => rfl⟩

def shortRun : Run := .fresh run.id run.workflowId submission.id [check] ⟨0, 0⟩

def shortWorld : World :=
  { World.empty with store := (Store.empty.addSubmission submission).putRun shortRun }

theorem unbegun_shortWorld : shortWorld.store.Unbegun shortRun where
  coherent := by
    have submitted : (Store.empty.addSubmission submission).Coherent :=
      Store.coherent_empty.congr rfl rfl rfl rfl
    exact submitted.withRun shortRun
  writable := rfl
  held := rfl
  stepRuns := List.mergeSort_nil

/-- The first step waits for its job, and then its run can be called about it. -/
theorem exists_called : ∃ after,
    Called (surroundings accepted) equipment run.id world [⟨check.key, envelope⟩] after := by
  have executed : Called (surroundings accepted) equipment run.id world [] _ := .begun
  have submitted : world.store.submissions.get? submission.id = some submission := rfl
  have unbegun : world.store.Unbegun run := unbegun_store
  have travels := (blind_surroundings accepted).travels equipment distinct_steps submission
    run.id run.workflowId ⟨0, 0⟩ unbegun submitted executed
  have sorted : run.orderedSteps = steps := by
    change Run.inOrder (Run.inOrder steps) = steps
    rw [inOrder_steps, inOrder_steps]
  have reports := travels.reports
  change _ = (course _ [] run.orderedSteps).reports at reports
  rw [sorted] at reports
  obtain ⟨output, issues, waits⟩ : ∃ output issues,
      (course ((Surroundings.judge (surroundings accepted) equipment submission).informed equipment
        []) [] steps).reports = [.waiting check output issues] := ⟨_, _, rfl⟩
  rw [waits, List.map_eq_singleton_iff] at reports
  obtain ⟨stepRun, only, report⟩ := reports
  have key : stepRun.stepKey = check.key := congrArg StepReport.key report
  have running : stepRun.status = .running := congrArg StepReport.status report
  have called := executed.answered envelope (only ▸ List.mem_singleton_self stepRun) running
    (Or.inl rfl) fun _ no => nomatch no
  rw [key] at called
  exact ⟨_, called⟩

theorem check_agrees : ∃ after other,
    Called (surroundings accepted) equipment run.id world [⟨check.key, envelope⟩] after ∧
    Called (surroundings accepted) equipment shortRun.id shortWorld [⟨check.key, envelope⟩] other ∧
    AlikeBelow (surroundings accepted) 20 run.id after shortRun.id other := by
  have distinct_short : DistinctSteps [check] := ⟨by decide, by decide, by decide⟩
  have same : (steps.filter fun step => step.order < 20).Perm
      ([check].filter fun step => step.order < 20) := .of_eq rfl
  obtain ⟨after, called⟩ := exists_called
  obtain ⟨⟨other, otherCalled⟩, agree⟩ := early_steps_agree (blind_surroundings accepted)
    equipment 20 distinct_steps distinct_short same submission run.id shortRun.id run.workflowId
    shortRun.workflowId ⟨0, 0⟩ ⟨0, 0⟩ unbegun_store rfl unbegun_shortWorld rfl called
  exact ⟨after, other, called, otherCalled, agree _ other otherCalled rfl⟩

end Example

end Vetting
