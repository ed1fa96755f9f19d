import Vetting.Proofs.Run.Course

/-!
Contract: the judge that plug-ins and a backend make, if their answers are fixed.

Owns:
- conclusions without facts about jobs;
- `Replies`: what plug-ins and the backend answer, and the judge that goes with it;
- that a step comes to what the judge says, whatever facts about its job there are.

Does not own: which answers are fixed in which setting (`Vetting.Proofs.Run.Agreement`,
`Vetting.Proofs.Run.Recovery`).
-/

namespace Vetting

open Json (Value)
open Rule (Ruleset)
open Scope (Signals)
open Execution

/-! ### Conclusions without facts about jobs -/

/-- The output without facts about a job. -/
def StepOutput.erased (output : StepOutput) : StepOutput := { output with job? := none }

namespace Execution

/-- What an answer of the backend says about the work of a job. -/
def told (answer : Except BackendFault JobResponse) :
    Except BackendFault (Bool × Option Envelope × Option String) :=
  answer.map fun response => (response.isComplete, response.envelope?,
    if response.envelope?.isNone then response.errorMessage else none)

namespace Conclusion

/-- The conclusion without facts about a job. -/
def erased : Conclusion → Conclusion
  | .ended verdict => .ended { verdict with output := verdict.output.erased }
  | .pending output issues => .pending output.erased issues
  | .faulted fault => .faulted fault

theorem erased_ofFault (earlier : List Issue) (output : StepOutput) (fault : EngineFault) :
    (ofFault earlier output fault).erased = .ofFault earlier output.erased fault := by
  cases fault <;> rfl

/-- What the backend makes of a step rests on what its answer says about the work. -/
theorem erased_ofLaunch (equipment : Equipment) (validator : Validator) (ruleset : Ruleset)
    (external : ExternalValidator) (interim : StepOutput) (earlier : List Issue) (signals : Signals)
    {answer other : Except BackendFault JobResponse} (same : told answer = told other) :
    (ofLaunch equipment validator ruleset external interim earlier signals answer).erased =
      .ofLaunch equipment validator ruleset external interim.erased earlier signals other := by
  cases answer with
  | error fault =>
    cases other with
    | error otherFault =>
      cases same
      exact erased_ofFault _ _ _
    | ok response => cases same
  | ok response =>
    cases other with
    | error otherFault => cases same
    | ok otherResponse =>
      simp only [told, Except.map, Except.ok.injEq, Prod.mk.injEq] at same
      obtain ⟨complete, envelope, message⟩ := same
      unfold ofLaunch
      dsimp only
      rw [complete, envelope]
      rw [envelope] at message
      cases otherResponse.isComplete with
      | false => rfl
      | true =>
        cases isEnvelope : otherResponse.envelope? with
        | some report => rfl
        | none =>
          rw [isEnvelope] at message
          have sameMessage : response.errorMessage = otherResponse.errorMessage := message
          simp only [if_true, missingEnvelope, sameMessage]
          rfl

/-- What a report of a job makes of a step does not rest on other facts about the job. -/
theorem erased_ofEnvelope (checker : Rule.Checker) (validator : Validator) (ruleset : Ruleset)
    (external : ExternalValidator) {base other : StepOutput} (earlier : List Issue)
    (envelope : Envelope) (signals : Signals) (same : base.erased = other.erased) :
    (Conclusion.ended (.ofEnvelope checker validator ruleset external base earlier envelope
      signals)).erased =
      (Conclusion.ended (.ofEnvelope checker validator ruleset external other earlier envelope
        signals)).erased := by
  cases base
  cases other
  simp only [StepOutput.erased, StepOutput.mk.injEq, true_and] at same
  obtain ⟨rfl, rfl, rfl, rfl, rfl, rfl, rfl, rfl⟩ := same
  rfl

theorem erased_erased (conclusion : Conclusion) : conclusion.erased.erased = conclusion.erased := by
  cases conclusion <;> rfl

/-! What comes to the same as a given conclusion but for facts about a job. -/

theorem exists_ended_of_erased {verdict : Verdict} {conclusion : Conclusion}
    (same : (Conclusion.ended verdict).erased = conclusion.erased) :
    ∃ other, conclusion = .ended other ∧ ∀ step, verdict.report step = other.report step := by
  cases conclusion with
  | pending | faulted => cases same
  | ended other =>
    refine ⟨other, rfl, fun step => ?_⟩
    simp only [erased, Conclusion.ended.injEq, Verdict.mk.injEq] at same
    obtain ⟨status, erased, error, issues⟩ := same
    rw [StepOutput.erased, StepOutput.erased] at erased
    rw [Verdict.report, Verdict.report, status, erased, error, issues]

theorem exists_pending_of_erased {output : StepOutput} {issues : List Issue}
    {conclusion : Conclusion}
    (same : (Conclusion.pending output issues).erased = conclusion.erased) :
    ∃ left, conclusion = .pending left issues ∧ output.erased = left.erased := by
  cases conclusion with
  | ended | faulted => cases same
  | pending left told =>
    obtain ⟨sameOutput, rfl⟩ := Conclusion.pending.inj same
    exact ⟨left, rfl, sameOutput⟩

theorem eq_faulted_of_erased {fault : EngineFault} {conclusion : Conclusion}
    (same : (Conclusion.faulted fault).erased = conclusion.erased) :
    conclusion = .faulted fault := by
  cases conclusion with
  | ended | pending => cases same
  | faulted other =>
    cases same
    rfl

/-- A fault of the backend makes the step fail. -/
theorem ofLaunch_ne_faulted (equipment : Equipment) (validator : Validator) (ruleset : Ruleset)
    (external : ExternalValidator) (interim : StepOutput) (earlier : List Issue) (signals : Signals)
    (answer : Except BackendFault JobResponse) (fault : EngineFault) :
    ofLaunch equipment validator ruleset external interim earlier signals answer ≠
      .faulted fault := by
  unfold ofLaunch
  split
  · rename_i backendFault
    cases backendFault <;> exact Conclusion.noConfusion
  · dsimp only
    split
    · split <;> exact Conclusion.noConfusion
    · exact Conclusion.noConfusion

end Conclusion

end Execution

/-- The norm of a judge allows for what comes to the same but for facts about a job. -/
theorem Norm.judged_allows {judge : Judge} {exact : Prop} {numbering : Option Nat}
    {cutOff : Step → StepOutput → Prop} {waits : List StepReport → Step → StepReport → Prop}
    {earlier : List StepReport} {step : Step} {output : StepOutput} {conclusion : Conclusion}
    (same : conclusion.erased = (judge earlier step).erased)
    (decided : conclusion.Decided) (settled : ∀ left issues, conclusion ≠ .pending left issues)
    (untouched : ∀ fault, conclusion = .faulted fault → output = .empty) :
    (Norm.judged judge exact numbering cutOff waits).Allows earlier step output conclusion := by
  cases conclusion with
  | pending left issues => exact absurd rfl (settled left issues)
  | ended verdict =>
    obtain ⟨other, isJudged, sameReport⟩ := Conclusion.exists_ended_of_erased same
    have sameStatus : verdict.status = other.status :=
      congrArg StepReport.status (sameReport step)
    refine ⟨fun passed => ?_, fun failed => ?_⟩
    · exact ⟨other, isJudged, sameStatus.symm.trans passed, sameReport step⟩
    · refine ⟨other.error, ?_, fun _ => congrArg StepReport.error (sameReport step)⟩
      rw [isJudged, sameReport]
      exact .ended (sameStatus.symm.trans failed)
  | faulted fault =>
    refine ⟨some genericFailure, ?_, fun _ => rfl⟩
    rw [Conclusion.eq_faulted_of_erased same, untouched fault rfl]
    exact .faulted

/-! ### Fixed answers -/

/-- What plug-ins and the backend answer about the steps of a run. -/
structure Replies where
  validate : Validator → Except EngineFault ValidationOutcome
  act : List StepReport → Step → String → Value → Except EngineFault ActionOutcome
  backendAvailable : Bool
  launch : List StepReport → Step → Validator → ExternalValidator → Except BackendFault JobResponse

/-- What a step has left when its job is handed over, apart from facts about the job. -/
def leftBefore (validator : Validator) (report : Rule.Report) : StepOutput :=
  { StepOutput.empty with
    inputAssertions := report.stats
    severityCounts := countIssues report.issues
    inputHalted := report.halted
    configHash? := some (Digest.ofValue validator.config) }

namespace Replies

/-- The judge that goes with fixed answers. -/
def judge (replies : Replies) (equipment : Equipment) (submission : Submission) : Judge :=
  fun earlier step =>
    match step.kind with
    | .action type params =>
      match equipment.actions.resolve type with
      | .error fault => .ofFault [] .empty fault
      | .ok () =>
        match replies.act earlier step type params with
        | .error fault => .ofFault [] .empty fault
        | .ok outcome => .ended (.ofAction type outcome)
    | .validator validator ruleset =>
      match equipment.validators.resolve validator with
      | .error fault => .ofFault [] .empty fault
      | .ok .inline =>
        match replies.validate validator with
        | .error fault => .ofFault [] .empty fault
        | .ok outcome => .ended
            (.ofInline equipment.checker validator ruleset submission (signalsOf earlier) outcome)
      | .ok (.external external) =>
        if replies.backendAvailable then
          let report := inputReport equipment.checker validator ruleset submission
            (signalsOf earlier)
          .ofLaunch equipment validator ruleset external (leftBefore validator report)
            report.issues (signalsOf earlier) (replies.launch earlier step validator external)
        else .ofFault [] .empty (backendMissing equipment)

theorem judge_job (replies : Replies) {equipment : Equipment} (submission : Submission)
    (earlier : List StepReport) {step : Step} {validator : Validator} {ruleset : Ruleset}
    {external : ExternalValidator} (isJob : step.IsJob equipment.validators validator ruleset external)
    (available : replies.backendAvailable = true) :
    replies.judge equipment submission earlier step =
      .ofLaunch equipment validator ruleset external
        (leftBefore validator
          (inputReport equipment.checker validator ruleset submission (signalsOf earlier)))
        (inputReport equipment.checker validator ruleset submission (signalsOf earlier)).issues
        (signalsOf earlier) (replies.launch earlier step validator external) := by
  unfold judge
  rw [isJob.1]
  dsimp only
  rw [isJob.2]
  exact if_pos available

/-- Handing over a job comes to what the judge says but for facts about the job, if the answer says
the same about the work. -/
theorem erased_ofLaunch (replies : Replies) {equipment : Equipment} (submission : Submission)
    (earlier : List StepReport) {step : Step} {validator : Validator} {ruleset : Ruleset}
    {external : ExternalValidator}
    (isJob : step.IsJob equipment.validators validator ruleset external)
    (available : replies.backendAvailable = true) (stepRun : StepRun)
    {answer : Except BackendFault JobResponse}
    (same : told answer = told (replies.launch earlier step validator external)) :
    (Conclusion.ofLaunch equipment validator ruleset external
      (handedOver equipment validator
        (inputReport equipment.checker validator ruleset submission (signalsOf earlier)) stepRun)
      (inputReport equipment.checker validator ruleset submission (signalsOf earlier)).issues
      (signalsOf earlier) answer).erased =
      (replies.judge equipment submission earlier step).erased := by
  rw [replies.judge_job submission earlier isJob available, ← Conclusion.erased_erased,
    Conclusion.erased_ofLaunch _ _ _ _ _ _ _ same]
  rfl

variable {replies : Replies} {equipment : Equipment} {submission : Submission}
  {earlier : List StepReport}

/-- Plug-ins answer as they have to, and so does the backend about whether it is available. -/
structure Fixed (replies : Replies) (mayAnswer : (request : Request) → request.Answer → Prop)
    (runId : Uuid) (submission : Submission) : Prop where
  validate : ∀ validator answer, mayAnswer (.validate validator submission) answer →
    answer = replies.validate validator
  act : ∀ earlier step type params answer,
    mayAnswer (.act type ⟨runId, step.key, params, submission, signalsOf earlier⟩) answer →
    answer = replies.act earlier step type params
  backendAvailable : ∀ answer, mayAnswer .backendAvailable answer →
    answer = replies.backendAvailable

/-- A step may be found with an output only if its job can be handed over. -/
def CutOff (replies : Replies) (equipment : Equipment) (step : Step) : Prop :=
  replies.backendAvailable = true ∧ ∃ validator ruleset external,
    step.IsJob equipment.validators validator ruleset external

/-- The norm of fixed answers, with the outputs that a job may leave and the reports with which a
step may wait. -/
def norm (replies : Replies) (equipment : Equipment) (submission : Submission) (exact : Prop)
    (numbering : Option Nat) (mayLeave : StepOutput → Prop)
    (waits : List StepReport → Step → StepReport → Prop) : Norm :=
  .judged (replies.judge equipment submission) exact numbering
    (fun step output => replies.CutOff equipment step ∧ mayLeave output) waits

/-- A step comes to what the judge says, or its job is handed over. -/
theorem concludes {mayAnswer : (request : Request) → request.Answer → Prop} {runId : Uuid}
    (fixed : replies.Fixed mayAnswer runId submission) {context : StepContext}
    (ofRun : context.run.id = runId) (sameSubmission : context.submission = submission)
    (sameSignals : context.signals = signalsOf earlier)
    (left : context.stepRun.output = .empty ∨ replies.CutOff equipment context.step)
    {conclusion : Conclusion} (concludes : Concludes mayAnswer equipment context [] conclusion) :
    (context.stepRun.output = .empty ∧
      conclusion = replies.judge equipment submission earlier context.step) ∨
    (replies.backendAvailable = true ∧ ∃ validator ruleset external answer,
      context.step.IsJob equipment.validators validator ruleset external ∧
      mayAnswer (.launch (jobRequest context validator external
        (Digest.attemptKey context.stepRun.id context.stepRun.attempt))) answer ∧
      conclusion = .ofLaunch equipment validator ruleset external
        (handedOver equipment validator
          (inputReport equipment.checker validator ruleset submission (signalsOf earlier))
          context.stepRun)
        (inputReport equipment.checker validator ruleset submission (signalsOf earlier)).issues
        (signalsOf earlier) answer) := by
  have untouched : (∀ validator ruleset external,
      ¬ context.step.IsJob equipment.validators validator ruleset external) →
      context.stepRun.output = .empty := by
    intro noJob
    rcases left with empty | ⟨_, validator, ruleset, external, isJob⟩
    · exact empty
    · exact absurd isJob (noJob validator ruleset external)
  unfold Concludes at concludes
  cases kind : context.step.kind with
  | action type params =>
    have empty := untouched fun _ _ _ => not_isJob_of_action kind
    refine Or.inl ⟨empty, ?_⟩
    rw [kind] at concludes
    unfold judge
    rw [kind]
    dsimp only at concludes ⊢
    cases resolved : equipment.actions.resolve type with
    | error fault =>
      rw [resolved, empty] at concludes
      exact concludes
    | ok found =>
      rw [resolved, ofRun, sameSubmission, sameSignals] at concludes
      obtain ⟨answer, may, rfl⟩ := concludes
      rw [fixed.act _ _ _ _ _ may, empty]
      cases replies.act earlier context.step type params <;> rfl
  | validator validator ruleset =>
    rw [kind] at concludes
    dsimp only at concludes
    cases resolved : equipment.validators.resolve validator with
    | error fault =>
      have empty := untouched fun _ _ _ isJob => by
        have found := isJob.resolved kind
        rw [resolved] at found
        cases found
      refine Or.inl ⟨empty, ?_⟩
      unfold judge
      rw [kind]
      dsimp only
      rw [resolved]
      rw [resolved, empty] at concludes
      exact concludes
    | ok how =>
      cases how with
      | inline =>
        have empty := untouched fun _ _ _ isJob => by
          have found := isJob.resolved kind
          rw [resolved] at found
          cases found
        refine Or.inl ⟨empty, ?_⟩
        unfold judge
        rw [kind]
        dsimp only
        rw [resolved]
        rw [resolved, sameSubmission, sameSignals] at concludes
        obtain ⟨answer, may, rfl⟩ := concludes
        rw [fixed.validate _ _ may, empty]
        cases replies.validate validator <;> rfl
      | external external =>
        rw [resolved, sameSubmission, sameSignals] at concludes
        rcases concludes with ⟨may, concluded⟩ | ⟨may, answer, mayLaunch, concluded⟩
        · have unavailable : replies.backendAvailable = false := (fixed.backendAvailable _ may).symm
          have empty : context.stepRun.output = .empty := by
            rcases left with empty | ⟨available, _⟩
            · exact empty
            · rw [unavailable] at available
              cases available
          refine Or.inl ⟨empty, ?_⟩
          unfold judge
          rw [kind]
          dsimp only
          rw [resolved, concluded, empty, unavailable]
          rfl
        · exact Or.inr ⟨(fixed.backendAvailable _ may).symm, validator, ruleset, external, answer,
            ⟨kind, resolved⟩, mayLaunch, concluded⟩

/-- The backend answers with the job done, and as it has to apart from facts about the job. -/
structure Prompt (replies : Replies) (mayAnswer : (request : Request) → request.Answer → Prop)
    (runId : Uuid) (submission : Submission) (numbering : Option Nat) : Prop
    extends replies.Fixed mayAnswer runId submission where
  launch : ∀ context earlier validator external answer, context.run.id = runId →
    context.submission = submission →
    (∀ first, numbering = some first → context.stepRun.id.number = first + earlier.length) →
    mayAnswer (.launch (jobRequest context validator external
      (Digest.attemptKey context.stepRun.id context.stepRun.attempt))) answer →
    told answer = told (replies.launch earlier context.step validator external)
  complete : ∀ earlier step validator external response,
    replies.launch earlier step validator external = .ok response → response.isComplete = true

theorem cutOff_of_interim {mayAnswer : (request : Request) → request.Answer → Prop} {runId : Uuid}
    (fixed : replies.Fixed mayAnswer runId submission) {context : StepContext} {output : StepOutput}
    (interim : Interim mayAnswer equipment context output) :
    replies.CutOff equipment context.step := by
  obtain ⟨validator, ruleset, external, kind, resolved, may, _⟩ := interim
  exact ⟨(fixed.backendAvailable _ may).symm, validator, ruleset, external, kind, resolved⟩

/-- Steps wait only for jobs that the backend has accepted. -/
theorem judge_eq_pending {step : Step} {output : StepOutput} {issues : List Issue}
    (pending : replies.judge equipment submission earlier step = .pending output issues) :
    ∃ validator ruleset external response,
      step.IsJob equipment.validators validator ruleset external ∧
      replies.launch earlier step validator external = .ok response ∧
      response.isComplete = false := by
  unfold judge at pending
  split at pending
  · split at pending
    · exact absurd pending (Conclusion.ofFault_ne_pending _ _ _ _ _)
    · split at pending
      · exact absurd pending (Conclusion.ofFault_ne_pending _ _ _ _ _)
      · cases pending
  · rename_i validator ruleset kind
    split at pending
    · exact absurd pending (Conclusion.ofFault_ne_pending _ _ _ _ _)
    · split at pending
      · exact absurd pending (Conclusion.ofFault_ne_pending _ _ _ _ _)
      · cases pending
    · rename_i external resolved
      split at pending
      · obtain ⟨response, launched, accepted, _⟩ := Conclusion.pending_of_ofLaunch pending
        exact ⟨validator, ruleset, external, response, ⟨kind, resolved⟩, launched, accepted⟩
      · exact absurd pending (Conclusion.ofFault_ne_pending _ _ _ _ _)

theorem Prompt.judge_ne_pending {mayAnswer : (request : Request) → request.Answer → Prop}
    {runId : Uuid} {numbering : Option Nat}
    (prompt : replies.Prompt mayAnswer runId submission numbering) (equipment : Equipment)
    (earlier : List StepReport) (step : Step) (output : StepOutput) (issues : List Issue) :
    replies.judge equipment submission earlier step ≠ .pending output issues := by
  intro pending
  obtain ⟨_, _, _, response, _, launched, accepted⟩ := judge_eq_pending pending
  rw [prompt.complete _ _ _ _ _ launched] at accepted
  cases accepted

/-- With a prompt backend, steps come to what the judge says. -/
theorem Prompt.sound {regime : Regime} {runId : Uuid} {numbering : Option Nat}
    (prompt : replies.Prompt regime.mayAnswer runId submission numbering) (exact : Prop)
    {mayLeave : StepOutput → Prop}
    (leaves : ∀ context output, Interim regime.mayAnswer equipment context output → mayLeave output)
    (waits : List StepReport → Step → StepReport → Prop) :
    (replies.norm equipment submission exact numbering mayLeave waits).Sound regime equipment runId
      submission where
  cutOff := fun context output _ interim =>
    ⟨cutOff_of_interim prompt.toFixed interim, leaves context output interim⟩
  allows := by
    intro context earlier conclusion ofRun sameSubmission sameSignals left numbered concluded
    have decided := concluded.decided
    have judged := prompt.judge_ne_pending equipment earlier context.step
    rcases replies.concludes prompt.toFixed ofRun sameSubmission sameSignals
      (left.imp_right And.left) concluded with
      ⟨empty, rfl⟩ | ⟨available, validator, ruleset, external, answer, isJob, may, rfl⟩
    · exact Norm.judged_allows rfl decided judged fun _ _ => empty
    · have same := replies.erased_ofLaunch submission earlier isJob available context.stepRun
        (prompt.launch context earlier validator external answer ofRun sameSubmission numbered may)
      refine Norm.judged_allows same decided (fun output issues pending => ?_)
        fun fault faulted => absurd faulted (Conclusion.ofLaunch_ne_faulted _ _ _ _ _ _ _ _ _)
      rw [pending] at same
      obtain ⟨left, isJudged, _⟩ := Conclusion.exists_pending_of_erased same
      exact judged left issues isJudged

end Replies

end Vetting
