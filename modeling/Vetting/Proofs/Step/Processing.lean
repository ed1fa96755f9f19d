import Vetting.Proofs.Step.Record

/-!
Contract: processing a step comes to its conclusions, and to nothing else.

Owns:
- `StepAims`: what is to be reached for each conclusion of a step run at work;
- the outputs that a step may leave behind before it ends, and the findings with them;
- carrying out a step, and completing it by a callback, reach these aims.

Does not own: how a run follows its steps (`Vetting.Proofs.Run.Driving`).

Each result has the form of a rule: if the store may be asked in every state that a step
passes through, and the aim holds for each conclusion, then the program ensures the aim.
-/

namespace Vetting

open Scope (Signals)

/-- The signals that steps of a run below an order have left in a store. -/
def Store.signalsBefore (store : Store) (runId : Uuid) (before : Int) : Signals :=
  Dictionary.ofEntries (((store.stepRunsOf runId).filter fun stepRun =>
    stepRun.stepOrder < before && !stepRun.output.signals.isEmpty).map fun stepRun =>
      (stepRun.stepKey, stepRun.output.signals))

/-- Changing elements that are left out both before and after makes no difference. -/
private theorem map_filter_replaced {α β : Type} {replace : α → α} {keeps : α → Bool} {show' : α → β}
    {list : List α} (hidden : ∀ element ∈ list, replace element = element ∨
      keeps (replace element) = false ∧ keeps element = false) :
    ((list.map replace).filter keeps).map show' = (list.filter keeps).map show' := by
  induction list with
  | nil => rfl
  | cons first rest inductionHypothesis =>
    have same := inductionHypothesis fun element member =>
      hidden element (List.mem_cons_of_mem _ member)
    rcases hidden first List.mem_cons_self with stays | ⟨after, before⟩
    · simp only [List.map_cons, List.filter_cons, stays]
      split
      · simp only [List.map_cons, same]
      · exact same
    · simp only [List.map_cons, List.filter_cons, after, before]
      exact same

/-- Rewriting a step run that leaves no signals below an order, and has left none, makes no difference
there. -/
theorem Store.Rewrites.signalsBefore {before after : Store} {stepRun old : StepRun}
    {findings : List Finding} (rewrites : Rewrites before stepRun findings after)
    (coherent : before.Coherent) (held : before.stepRuns.get? stepRun.id = some old)
    (sameRun : stepRun.runId = old.runId) (sameOrder : stepRun.stepOrder = old.stepOrder)
    {runId : Uuid} {order : Int} (unseen : old.runId = runId → old.stepOrder < order →
      old.output.signals.isEmpty = true ∧ stepRun.output.signals.isEmpty = true) :
    after.signalsBefore runId order = before.signalsBefore runId order := by
  rw [Store.signalsBefore, Store.signalsBefore,
    rewrites.stepRunsOf coherent held sameRun sameOrder runId]
  refine congrArg Dictionary.ofEntries (map_filter_replaced fun other member => ?_)
  by_cases same : other.id = stepRun.id
  · obtain ⟨found, ofRun⟩ := coherent.mem_stepRunsOf.mp member
    rw [same, held] at found
    obtain rfl := Option.some.inj found
    apply Or.inr
    rw [if_pos same, sameOrder]
    by_cases below : old.stepOrder < order
    · obtain ⟨before, after⟩ := unseen ofRun below
      simp [before, after]
    · simp [below]
  · exact Or.inl (if_neg same)

namespace Execution

open Store (Rewrites Ends)
open Rule (Checker Ruleset)

@[simp] theorem verdictStatus_isTerminal (passed : Bool) :
    (verdictStatus passed).isTerminal = true := by
  cases passed <;> rfl

/-- What is to be reached for each conclusion of a step run. -/
structure StepAims (allowed : Store → Prop) (before : Store) (stepRun : StepRun)
    (concludes : Conclusion → Prop) (good : StepResult → World → Prop)
    (bad : EngineFault → World → Prop) : Prop where
  ends : ∀ verdict ended after, concludes (.ended verdict) →
    Ends before stepRun verdict ended after.store →
    allowed after.store ∧ good (.ofStepRun ended) after
  waits : ∀ output issues findings after, concludes (.pending output issues) →
    findings.map Finding.issue = issues →
    Rewrites before (stepRun.leaving output) findings after.store →
    allowed after.store ∧ good (.ofStepRun (stepRun.leaving output)) after
  breaks : ∀ fault after, concludes (.faulted fault) → after.store = before → bad fault after

/-- What a step may leave behind before it ends: its job is about to be handed over, or has ended
without a report. -/
def Interim (mayAnswer : (request : Request) → request.Answer → Prop) (equipment : Equipment)
    (context : StepContext) (output : StepOutput) : Prop :=
  ∃ validator ruleset external,
    context.step.kind = .validator validator ruleset ∧
    equipment.validators.resolve validator = .ok (.external external) ∧
    mayAnswer .backendAvailable true ∧
    let handed := handedOver equipment validator (inputReport equipment.checker validator ruleset
      context.submission context.signals) context.stepRun
    output = handed ∨ ∃ response,
      mayAnswer (.launch (jobRequest context validator external
        (Digest.attemptKey context.stepRun.id context.stepRun.attempt))) (.ok response) ∧
      response.isComplete = true ∧ response.envelope? = none ∧
      output = withResponse handed response

/-- What a step leaves behind before it ends, with the issues of its findings.  When a job has ended
without a report, the finding that says so comes next. -/
def Midway (mayAnswer : (request : Request) → request.Answer → Prop) (equipment : Equipment)
    (context : StepContext) (output : StepOutput) (issues : List Issue) : Prop :=
  ∃ validator ruleset external,
    context.step.kind = .validator validator ruleset ∧
    equipment.validators.resolve validator = .ok (.external external) ∧
    mayAnswer .backendAvailable true ∧
    let report := inputReport equipment.checker validator ruleset context.submission context.signals
    let handed := handedOver equipment validator report context.stepRun
    output = handed ∨ ∃ response,
      mayAnswer (.launch (jobRequest context validator external
        (Digest.attemptKey context.stepRun.id context.stepRun.attempt))) (.ok response) ∧
      response.isComplete = true ∧ response.envelope? = none ∧
      output = withResponse handed response ∧
      (issues = report.issues ∨ issues = report.issues ++ [missingEnvelope equipment response])

theorem Midway.interim {mayAnswer : (request : Request) → request.Answer → Prop}
    {equipment : Equipment} {context : StepContext} {output : StepOutput} {issues : List Issue}
    (midway : Midway mayAnswer equipment context output issues) :
    Interim mayAnswer equipment context output := by
  obtain ⟨validator, ruleset, external, kind, resolved, may, left⟩ := midway
  refine ⟨validator, ruleset, external, kind, resolved, may, left.imp_right ?_⟩
  rintro ⟨response, launched, complete, brought, isOutput, _⟩
  exact ⟨response, launched, complete, brought, isOutput⟩

section Processing

variable {regime : Regime} {allowed : Store → Prop} {world : World} {stepRun : StepRun}
  {good : StepResult → World → Prop} {bad : EngineFault → World → Prop}

theorem ensures_collectSignals (work : AtWork regime allowed world.store stepRun) (runId : Uuid)
    (before : Int) {good : Signals → World → Prop}
    (reached : good (world.store.signalsBefore runId before) world) :
    Ensures regime (collectSignals runId before) world good bad := by
  refine (ensures_bind _ _).mpr ((ensures_ask rfl).mpr ⟨work.watch _, ?_⟩)
  exact reached

/-! ### Faults that stay in a step -/

/-- A step run has been broken off by a fault, which is a way to conclude it. -/
def Breaking (regime : Regime) (allowed : Store → Prop) (before : Store) (stepRun : StepRun)
    (concludes : Conclusion → Prop) (fault : EngineFault) (after : World) : Prop :=
  ∃ output findings, Rewrites before (stepRun.leaving output) findings after.store ∧
    AtWork regime allowed after.store (stepRun.leaving output) ∧
    concludes (.ofFault (findings.map Finding.issue) output fault) ∧
    (Conclusion.ofFault (findings.map Finding.issue) output fault = .faulted fault →
      after.store = before)

/-- A step run that is broken off before anything is recorded for it. -/
theorem breaking_at_once {before : Store} {concludes : Conclusion → Prop}
    {fault : EngineFault} (work : AtWork regime allowed before stepRun)
    (same : world.store = before)
    (concluded : concludes (.ofFault (before.issuesOf stepRun.id) stepRun.output fault)) :
    Breaking regime allowed before stepRun concludes fault world := by
  refine ⟨stepRun.output, before.findingsOf stepRun.id, ?_, ?_, concluded, fun _ => same⟩
  · rw [same]
    exact .refl work.held
  · rw [same]
    exact work

theorem ensures_failCurrent (work : AtWork regime allowed world.store stepRun)
    (running : stepRun.status = .running) (code detail : String)
    (reached : ∀ ended after,
      Ends world.store stepRun (.failing (world.store.issuesOf stepRun.id) (.error code detail)
        stepRun.output) ended after.store →
      allowed after.store ∧ good (.ofStepRun ended) after) :
    Ensures regime (failCurrent stepRun.id code detail) world good bad := by
  refine (ensures_bind _ _).mpr ((ensures_ask (Store.answer_stepRun work.held)).mpr
    ⟨work.watch _, ?_⟩)
  have goesOn : stepRun.status.isTerminal = false := by
    rw [running]
    rfl
  rw [goesOn]
  exact ensures_failWithIssue work.present running _ _ (fun _ _ _ => work.stays _ _) reached

/-- A job whose faults are ways to conclude a step reaches the aims of the step. -/
theorem ensures_contain {before : Store} {concludes : Conclusion → Prop} {job : Job StepResult}
    (running : stepRun.status = .running)
    (aims : StepAims allowed before stepRun concludes good bad)
    (ensures : Ensures regime job world good
      (Breaking regime allowed before stepRun concludes)) :
    Ensures regime (contain stepRun.id job) world good bad := by
  rw [contain, ensures_tryCatch]
  apply ensures.imp (fun _ _ reached => reached)
  intro fault after broken
  obtain ⟨output, findings, rewrites, work, concluded, unchanged⟩ := broken
  have issues : after.store.issuesOf stepRun.id = findings.map Finding.issue :=
    rewrites.issuesOf_self
  -- A fault that stays in the step is one more finding of it.
  have fails : ∀ code detail,
      concludes (.ended (.failing (findings.map Finding.issue) (.error code detail) output)) →
      Ensures regime (failCurrent stepRun.id code detail) after good bad := by
    intro code detail concluded
    rw [← issues] at concluded
    exact ensures_failCurrent work running code detail fun ended later ends =>
      aims.ends _ _ _ concluded (ends.since rewrites)
  cases fault with
  | configuration detail => exact fails _ _ concluded
  | execution detail => exact fails _ _ concluded
  | _ => exact aims.breaks _ _ concluded (unchanged rfl)

/-! ### Completing a step with the report of its job -/

theorem ensures_completeWith (work : AtWork regime allowed world.store stepRun)
    (running : stepRun.status = .running) (equipment : Equipment) (run : Run) {step : Step}
    {validator : Validator} {ruleset : Ruleset} (kind : step.kind = .validator validator ruleset)
    (base : StepOutput) (envelope : Envelope) (external : ExternalValidator) (signals : Signals)
    (reached : ∀ ended after,
      Ends world.store stepRun (.ofEnvelope equipment.checker validator ruleset external base
        (world.store.issuesOf stepRun.id) envelope signals) ended after.store →
      allowed after.store ∧ good (.ofStepRun ended) after) :
    Ensures regime (completeWith equipment run step stepRun base envelope external signals) world
      good bad := by
  simp only [completeWith, validatorOf, kind, ensures_bind, ensures_given]
  apply ensures_record work.present _ _ .append
  intro _ findings recorded _ issues rewrites
  have work := work.rewrites rewrites
  refine ensures_countFindings work.present ?_
  rw [rewrites.issuesOf_self, issues]
  refine ensures_endStep work.present rfl running (verdictStatus_isTerminal _) _ _
    fun now after ended => ?_
  rw [rewrites.findings_self] at ended
  exact reached _ _ ⟨⟨now, rfl⟩, findings, issues, rewrites.trans ended rfl⟩

/-- The callback of a job completes the step that waits for it, or a fault breaks it off. -/
theorem ensures_completeContained (work : AtWork regime allowed world.store stepRun)
    (running : stepRun.status = .running) {run : Run}
    (held : world.store.runs.get? stepRun.runId = some run) (equipment : Equipment)
    (envelope : Envelope)
    (aims : StepAims allowed world.store stepRun (· = .ofCallback equipment run
      (run.stepByKey? stepRun.stepKey) stepRun (world.store.issuesOf stepRun.id) envelope
      (world.store.signalsBefore run.id)) good bad) :
    Ensures regime (completeContained equipment stepRun.id envelope) world good bad := by
  refine ensures_contain running aims ?_
  refine (ensures_bind _ _).mpr ((ensures_ask (Store.answer_stepRun work.held)).mpr
    ⟨work.watch _, ?_⟩)
  have goesOn : stepRun.status.isTerminal = false := by
    rw [running]
    rfl
  have answered : world.store.answer (.run stepRun.runId) = (.ok run, world.store) := by
    rw [Store.answer, Store.run, held]
  rw [goesOn]
  simp only [Bool.false_eq_true, if_false, ensures_bind]
  refine (ensures_ask answered).mpr ⟨work.watch _, ?_⟩
  cases found : run.stepByKey? stepRun.stepKey with
  | none =>
    rw [ensures_throw]
    exact breaking_at_once work rfl rfl
  | some step =>
    simp only [ensures_bind, ensures_given]
    cases kind : validatorOf step with
    | error fault => exact breaking_at_once work rfl (by rw [Conclusion.ofCallback, kind])
    | ok parts =>
      obtain ⟨validator, ruleset⟩ := parts
      have ofKind : step.kind = .validator validator ruleset := by
        unfold validatorOf at kind
        cases split : step.kind with
        | action type params => simp [split] at kind
        | validator used rules => simpa [split] using kind
      dsimp only
      cases resolved : resolveExternal equipment validator with
      | error fault =>
        exact breaking_at_once work rfl (by simp only [Conclusion.ofCallback, kind, resolved])
      | ok external =>
        refine ensures_collectSignals work _ _ ?_
        refine ensures_completeWith work running equipment run ofKind _ _ _ _
          fun ended after ends => ?_
        refine aims.ends _ _ _ ?_ ends
        simp only [found, Conclusion.ofCallback, kind, resolved]

/-! ### Carrying out a step -/

variable {context : StepContext} {equipment : Equipment}

theorem ensures_processInline (work : AtWork regime allowed world.store context.stepRun)
    (running : context.stepRun.status = .running) {validator : Validator} {ruleset : Ruleset}
    (kind : context.step.kind = .validator validator ruleset)
    (resolved : equipment.validators.resolve validator = .ok .inline)
    {concludes : Conclusion → Prop}
    (sound : ∀ conclusion, Concludes regime.mayAnswer equipment context
      (world.store.issuesOf context.stepRun.id) conclusion → concludes conclusion)
    (aims : StepAims allowed world.store context.stepRun concludes good bad) :
    Ensures regime (processInline equipment context) world good
      (Breaking regime allowed world.store context.stepRun concludes) := by
  simp only [processInline, validatorOf, kind, resolved, ensures_bind, ensures_given,
    ensures_validate]
  refine ⟨work.watch _, fun answer may => ?_⟩
  have concluded := fun conclusion equal => sound conclusion (by
    simp only [Concludes, kind, resolved]
    exact ⟨answer, may, equal⟩)
  cases answer with
  | error fault => exact breaking_at_once work rfl (concluded _ rfl)
  | ok outcome =>
    apply ensures_record work.present _ _ .replace
    intro recorded findings after counted issues rewrites
    refine ensures_endStep (work.rewrites rewrites).present rfl running (verdictStatus_isTerminal _) _ _
      fun now after ended => ?_
    rw [rewrites.findings_self] at ended
    refine aims.ends _ _ _ (concluded _ rfl) ⟨⟨now, ?_⟩, findings, issues, rewrites.trans ended rfl⟩
    rw [counted]
    rfl

theorem ensures_processAction (work : AtWork regime allowed world.store context.stepRun)
    (running : context.stepRun.status = .running) {type : String} {params : Json.Value}
    (kind : context.step.kind = .action type params) {concludes : Conclusion → Prop}
    (sound : ∀ conclusion, Concludes regime.mayAnswer equipment context
      (world.store.issuesOf context.stepRun.id) conclusion → concludes conclusion)
    (aims : StepAims allowed world.store context.stepRun concludes good bad) :
    Ensures regime (processAction equipment context) world good
      (Breaking regime allowed world.store context.stepRun concludes) := by
  simp only [processAction, actionOf, kind, ensures_bind, ensures_given]
  cases resolved : equipment.actions.resolve type with
  | error fault =>
    refine breaking_at_once work rfl (sound _ ?_)
    simp only [Concludes, kind, resolved]
  | ok known =>
    rw [ensures_act]
    refine ⟨work.watch _, fun answer may => ?_⟩
    have concluded := fun conclusion equal => sound conclusion (by
      simp only [Concludes, kind, resolved]
      exact ⟨answer, may, equal⟩)
    cases answer with
    | error fault => exact breaking_at_once work rfl (concluded _ rfl)
    | ok outcome =>
      refine ensures_record work.present _ _ .replace
        fun recorded findings after counted issues rewrites => ?_
      refine ensures_endStep (work.rewrites rewrites).present rfl running (verdictStatus_isTerminal _) _ _
        fun now after ended => ?_
      rw [rewrites.findings_self] at ended
      refine aims.ends _ _ _ (concluded _ rfl)
        ⟨⟨now, ?_⟩, findings, issues, rewrites.trans ended rfl⟩
      rw [counted]
      rfl

/-! ### A step whose job has been launched -/

/-- What is left to do once the backend has answered. -/
def afterLaunch (equipment : Equipment) (context : StepContext) (external : ExternalValidator)
    (stepRun : StepRun) (interim : StepOutput) (response : JobResponse) : Job StepResult := do
  let interim := withResponse interim response
  if !response.isComplete then
    let stepRun ← storeInterim stepRun interim
    Job.log context.run.id
      (.stepPending context.step.key context.step.order response.executionId)
    return .ofStepRun stepRun
  match response.envelope? with
  | some envelope =>
    completeWith equipment context.run context.step stepRun interim envelope external
      context.signals
  | none =>
    let detail := response.errorMessage.getD "backend completed without an output envelope"
    let stepRun ← storeInterim stepRun interim
    failWithIssue stepRun
      { Issue.error "execution_error" detail with
        details := .object [("backend", .text equipment.backendName)] }
      stepRun.output

section Launched

variable {before : Store} {validator : Validator} {ruleset : Ruleset} {handed : StepOutput}
  {findings : List Finding} {external : ExternalValidator} {response : JobResponse}
  {concludes : Conclusion → Prop}

/-- A job that has ended without a report makes the step fail. -/
theorem ensures_failUnreported
    (work : AtWork regime allowed world.store (context.stepRun.leaving handed))
    (running : context.stepRun.status = .running)
    (since : Rewrites before (context.stepRun.leaving handed) findings world.store)
    (midway : ∀ left after, (left.map Finding.issue = findings.map Finding.issue ∨
        left.map Finding.issue =
          findings.map Finding.issue ++ [missingEnvelope equipment response]) →
      Rewrites before (context.stepRun.leaving (withResponse handed response)) left after →
      allowed after)
    (aims : StepAims allowed before context.stepRun concludes good bad)
    (concluded : concludes (.ended (.failing (findings.map Finding.issue)
      (missingEnvelope equipment response) (withResponse handed response))))
    {bad : EngineFault → World → Prop} :
    Ensures regime (do
      let stepRun ← storeInterim (context.stepRun.leaving handed) (withResponse handed response)
      failWithIssue stepRun (missingEnvelope equipment response) stepRun.output) world good bad := by
  rw [ensures_bind]
  apply ensures_storeInterim work.present _
  intro answered rewrites
  rw [StepRun.leaving_id, since.findings_leaving] at rewrites
  have sinceLaunch := since.trans rewrites rfl
  have issues : answered.store.issuesOf context.stepRun.id = findings.map Finding.issue :=
    sinceLaunch.issuesOf_self
  have present := work.present.rewrites rewrites
    (midway findings _ (Or.inl rfl) sinceLaunch)
  apply ensures_failWithIssue present running _ _
  · intro left later recorded rewritesLater
    rw [StepRun.leaving_id, StepRun.leaving_id, issues] at recorded
    exact midway left _ (Or.inr recorded) (sinceLaunch.trans rewritesLater rfl)
  · intro ended later ends
    rw [StepRun.leaving_id, StepRun.leaving_id, issues] at ends
    exact aims.ends _ _ _ concluded (ends.since sinceLaunch)

/-- Once the backend has answered, the step reaches its aims. -/
theorem ensures_afterLaunch
    (work : AtWork regime allowed world.store (context.stepRun.leaving handed))
    (running : context.stepRun.status = .running)
    (kind : context.step.kind = .validator validator ruleset)
    (since : Rewrites before (context.stepRun.leaving handed) findings world.store)
    (midway : response.isComplete = true → response.envelope? = none →
      ∀ left after, (left.map Finding.issue = findings.map Finding.issue ∨
          left.map Finding.issue =
            findings.map Finding.issue ++ [missingEnvelope equipment response]) →
        Rewrites before (context.stepRun.leaving (withResponse handed response)) left after →
        allowed after)
    (aims : StepAims allowed before context.stepRun concludes good bad)
    (concluded : concludes (.ofLaunch equipment validator ruleset external handed
      (findings.map Finding.issue) context.signals (.ok response)))
    {bad : EngineFault → World → Prop} :
    Ensures regime (afterLaunch equipment context external (context.stepRun.leaving handed) handed
      response) world good bad := by
  have issues : world.store.issuesOf context.stepRun.id = findings.map Finding.issue :=
    since.issuesOf_self
  unfold afterLaunch
  dsimp only
  cases complete : response.isComplete with
  | false =>
    simp only [Bool.not_false, if_true, ensures_bind, ensures_log, ensures_pure]
    simp only [Conclusion.ofLaunch, complete, Bool.false_eq_true, if_false] at concluded
    apply ensures_storeInterim work.present _
    intro accepted rewrites
    rw [StepRun.leaving_id, since.findings_leaving] at rewrites
    have reached := fun log =>
      aims.waits _ _ findings { accepted with log } concluded rfl (since.trans rewrites rfl)
    exact ⟨work.watches _ _ (reached accepted.log).1, fun time => (reached _).2⟩
  | true =>
    simp only [Bool.not_true, Bool.false_eq_true, if_false]
    cases brought : response.envelope? with
    | some envelope =>
      simp only [Conclusion.ofLaunch, complete, brought, if_true] at concluded
      apply ensures_completeWith work running equipment context.run kind
      intro ended later ends
      rw [StepRun.leaving_id, issues] at ends
      exact aims.ends _ _ _ concluded (ends.since since)
    | none =>
      simp only [Conclusion.ofLaunch, complete, brought, if_true] at concluded
      exact ensures_failUnreported work running since (midway complete brought) aims concluded

end Launched

theorem ensures_processExternal (work : AtWork regime allowed world.store context.stepRun)
    (running : context.stepRun.status = .running) {validator : Validator} {ruleset : Ruleset}
    (kind : context.step.kind = .validator validator ruleset) {external : ExternalValidator}
    (resolved : equipment.validators.resolve validator = .ok (.external external))
    (midway : ∀ output findings after,
      Midway regime.mayAnswer equipment context output (findings.map Finding.issue) →
      Rewrites world.store (context.stepRun.leaving output) findings after → allowed after)
    {concludes : Conclusion → Prop}
    (sound : ∀ conclusion, Concludes regime.mayAnswer equipment context
      (world.store.issuesOf context.stepRun.id) conclusion → concludes conclusion)
    (aims : StepAims allowed world.store context.stepRun concludes good bad) :
    Ensures regime (processExternal equipment context) world good
      (Breaking regime allowed world.store context.stepRun concludes) := by
  have isExternal : resolveExternal equipment validator = .ok external := by
    rw [resolveExternal, resolved]
    rfl
  simp only [processExternal, validatorOf, kind, isExternal, ensures_bind, ensures_given,
    ensures_backendAvailable]
  refine ⟨work.watch _, fun available may => ?_⟩
  cases available with
  | false =>
    refine breaking_at_once work rfl (sound _ ?_)
    simp only [Concludes, kind, resolved]
    exact Or.inl ⟨may, rfl⟩
  | true =>
    simp only [Bool.not_true, Bool.false_eq_true, if_false, ensures_bind]
    apply ensures_record work.present _ _ .replace
    intro recorded findings after counted issues rewrites
    -- From here on the step leaves an interim output behind.
    obtain ⟨report, isReport⟩ : ∃ report, report = inputReport equipment.checker validator ruleset
      context.submission context.signals := ⟨_, rfl⟩
    obtain ⟨handed, isHanded⟩ : ∃ handed, handed = handedOver equipment validator report
      context.stepRun := ⟨_, rfl⟩
    have leaves : interimOutput equipment validator (equipment.checker.check ruleset.assertions
        ⟨.input, context.submission.payload, validator.catalog, context.signals⟩)
        recorded.severityCounts (Digest.attemptKey context.stepRun.id context.stepRun.attempt) =
        handed := by
      rw [counted, isHanded, isReport]
      rfl
    rw [leaves]
    have ofReport : findings.map Finding.issue = report.issues := by
      rw [issues, isReport]
      rfl
    have handing : ∀ issues, Midway regime.mayAnswer equipment context handed issues := by
      intro issues
      refine ⟨validator, ruleset, external, kind, resolved, may, Or.inl ?_⟩
      rw [isHanded, isReport]
    have concluded : ∀ answer, regime.mayAnswer (.launch (jobRequest context validator external
        (Digest.attemptKey context.stepRun.id context.stepRun.attempt))) answer →
        concludes (.ofLaunch equipment validator ruleset external handed
          (findings.map Finding.issue) context.signals answer) := by
      intro answer launched
      refine sound _ ?_
      simp only [Concludes, kind, resolved]
      exact Or.inr ⟨may, answer, launched, by rw [ofReport, isHanded, isReport]⟩
    apply ensures_storeInterim (work.rewrites rewrites).present _
    intro stored rewritesStored
    have sinceStart : Rewrites world.store (context.stepRun.leaving handed) findings stored.store := by
      rw [rewrites.findings_self] at rewritesStored
      exact rewrites.trans rewritesStored rfl
    have workStored : AtWork regime allowed stored.store (context.stepRun.leaving handed) :=
      (work.rewrites rewrites).keeps rewritesStored
        fun _ _ later => midway _ _ _ (handing _) (rewrites.trans later rfl)
    rw [ensures_launch]
    refine ⟨workStored.watch _, fun answer launched => ?_⟩
    cases answer with
    | error fault =>
      refine ⟨handed, findings, sinceStart, workStored, concluded _ launched, ?_⟩
      intro uncontained
      cases fault <;> cases uncontained
    | ok response =>
      refine ensures_afterLaunch workStored running kind sinceStart ?_ aims (concluded _ launched)
      intro complete brought left after recorded
      apply midway
      rw [ofReport, isReport] at recorded
      refine ⟨validator, ruleset, external, kind, resolved, may, Or.inr
        ⟨response, launched, complete, brought, ?_, recorded⟩⟩
      rw [isHanded, isReport]

/-- Carrying out a step reaches its aims for every conclusion that it comes to. -/
theorem ensures_dispatch (work : AtWork regime allowed world.store context.stepRun)
    (running : context.stepRun.status = .running)
    (midway : ∀ output findings after,
      Midway regime.mayAnswer equipment context output (findings.map Finding.issue) →
      Rewrites world.store (context.stepRun.leaving output) findings after → allowed after)
    {concludes : Conclusion → Prop}
    (sound : ∀ conclusion, Concludes regime.mayAnswer equipment context
      (world.store.issuesOf context.stepRun.id) conclusion → concludes conclusion)
    (aims : StepAims allowed world.store context.stepRun concludes good bad) :
    Ensures regime (dispatch equipment context) world good bad := by
  refine ensures_contain running aims ?_
  rw [ensures_bind, ensures_given]
  cases kind : context.step.kind with
  | action type params =>
    have processor : Processor.ofStep equipment context.step = .ok .action := by
      rw [Processor.ofStep, kind]
    rw [processor]
    exact ensures_processAction work running kind sound aims
  | validator validator ruleset =>
    cases resolved : equipment.validators.resolve validator with
    | error fault =>
      have processor : Processor.ofStep equipment context.step = .error fault := by
        simp only [Processor.ofStep, kind, resolved]
        rfl
      rw [processor]
      refine breaking_at_once work rfl (sound _ ?_)
      simp only [Concludes, kind, resolved]
    | ok how =>
      cases how with
      | inline =>
        have processor : Processor.ofStep equipment context.step = .ok .inline := by
          simp only [Processor.ofStep, kind, resolved]
          rfl
        rw [processor]
        exact ensures_processInline work running kind resolved sound aims
      | external external =>
        have processor : Processor.ofStep equipment context.step = .ok .external := by
          simp only [Processor.ofStep, kind, resolved]
          rfl
        rw [processor]
        exact ensures_processExternal work running kind resolved midway sound aims

end Processing

end Execution

end Vetting
