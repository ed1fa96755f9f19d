import Vetting.Proofs.Step.Processing

/-!
Contract: the counters of a step against its findings.

Owns:
- `StepOutput.Tallies`: an output counts the assertions among some issues;
- when a verdict tallies: that of a failure and that of a job exactly if what the step had
  left before did, that of an action and that of an inline validator always;
- `HandsOver`: a step whose job is handed over if it is carried out;
- what carrying out a step comes to is accounted for, and so is what it leaves on its way.

Does not own: the findings that a store has (`Vetting.Proofs.Run.Tallying`).

Severities are counted anew whenever a step ends.  Assertions are not: a step that ends keeps
the counters that it has, and a report of output assertions is only added to them.
-/

namespace Vetting

/-- None of the issues stands for an assertion. -/
def Unasserted (issues : List Issue) : Prop := ∀ issue ∈ issues, issue.assertionId = none

/-- An output counts the assertions among some issues. -/
structure StepOutput.Tallies (output : StepOutput) (issues : List Issue) : Prop where
  total : output.assertionTotal = issues.countP fun issue => issue.assertionId.isSome
  failures : output.assertionFailures = issues.countP Issue.isFailedAssertion

section Counting

variable {output : StepOutput} {issues more : List Issue}

theorem Unasserted.countP_total (unasserted : Unasserted issues) :
    issues.countP (fun issue => issue.assertionId.isSome) = 0 := by
  rw [List.countP_eq_zero]
  intro issue member
  simp [unasserted issue member]

theorem Unasserted.countP_failures (unasserted : Unasserted issues) :
    issues.countP Issue.isFailedAssertion = 0 := by
  rw [List.countP_eq_zero]
  intro issue member
  simp [Issue.isFailedAssertion, unasserted issue member]

theorem Unasserted.append (first : Unasserted issues) (second : Unasserted more) :
    Unasserted (issues ++ more) := by
  intro issue member
  rcases List.mem_append.mp member with isFirst | isSecond
  · exact first issue isFirst
  · exact second issue isSecond

theorem unasserted_singleton {issue : Issue} (none : issue.assertionId = none) :
    Unasserted [issue] := by
  intro other member
  rw [List.mem_singleton.mp member]
  exact none

/-- Issues that stand for no assertion make no difference. -/
theorem StepOutput.tallies_append (unasserted : Unasserted more) :
    output.Tallies (issues ++ more) ↔ output.Tallies issues := by
  have total := unasserted.countP_total
  have failures := unasserted.countP_failures
  constructor
  · intro tallies
    have sameTotal := tallies.total
    have sameFailures := tallies.failures
    rw [List.countP_append] at sameTotal sameFailures
    exact ⟨by omega, by omega⟩
  · intro tallies
    have sameTotal := tallies.total
    have sameFailures := tallies.failures
    refine ⟨?_, ?_⟩
    · rw [List.countP_append]
      omega
    · rw [List.countP_append]
      omega

theorem StepOutput.tallies_empty : StepOutput.empty.Tallies [] := ⟨rfl, rfl⟩

end Counting

namespace Execution

open Scope (Signals)
open Rule (Checker Ruleset)

/-! ### Verdicts -/

theorem unasserted_messages (envelope : Envelope) :
    Unasserted (envelope.messages.map messageIssue ++ (statusIssue? envelope).toList) := by
  apply Unasserted.append
  · intro issue member
    obtain ⟨message, _, rfl⟩ := List.mem_map.mp member
    rfl
  · intro issue member
    unfold statusIssue? at member
    split at member
    · split at member
      · rw [List.mem_singleton.mp member]
        rfl
      · cases member
    · rw [List.mem_singleton.mp member]
      rfl
    · rw [List.mem_singleton.mp member]
      rfl
    · cases member

theorem unasserted_actionIssue (type : String) (outcome : ActionOutcome) :
    Unasserted (actionIssue? type outcome).toList := by
  intro issue member
  unfold actionIssue? at member
  split at member
  · rw [List.mem_singleton.mp member]
    rfl
  · rw [List.mem_singleton.mp member]
    rfl
  · rw [List.mem_singleton.mp member]
    rfl
  · cases member

namespace Verdict

/-- The counters of a verdict are those of its issues. -/
def Tallies (verdict : Verdict) : Prop := verdict.output.Tallies verdict.issues

variable {earlier : List Issue} {output : StepOutput}

/-- A step that fails keeps its counters. -/
theorem tallies_failing {issue : Issue} (none : issue.assertionId = none) :
    (failing earlier issue output).Tallies ↔ output.Tallies earlier := by
  have kept : (failing earlier issue output).Tallies ↔ output.Tallies (earlier ++ [issue]) :=
    ⟨fun tallies => ⟨tallies.total, tallies.failures⟩,
      fun tallies => ⟨tallies.total, tallies.failures⟩⟩
  exact kept.trans (StepOutput.tallies_append (unasserted_singleton none))

/-- The report of a job is added to what the step has counted before. -/
theorem tallies_ofEnvelope (unreported : output.outputAssertions = .zero) (checker : Checker)
    (validator : Validator) (ruleset : Ruleset) (external : ExternalValidator)
    (envelope : Envelope) (signals : Signals) :
    (ofEnvelope checker validator ruleset external output earlier envelope signals).Tallies ↔
      output.Tallies earlier := by
  obtain ⟨report, isReport⟩ : ∃ report, report = checker.check ruleset.assertions
    ⟨.output, envelope.outputs, validator.catalog, signals⟩ := ⟨_, rfl⟩
  have messages := unasserted_messages envelope
  have total : (ofEnvelope checker validator ruleset external output earlier envelope
        signals).output.assertionTotal =
      output.inputAssertions.total + report.issues.countP fun issue => issue.assertionId.isSome := by
    rw [isReport]
    rfl
  have failures : (ofEnvelope checker validator ruleset external output earlier envelope
        signals).output.assertionFailures =
      output.inputAssertions.failures + report.issues.countP Issue.isFailedAssertion := by
    rw [isReport]
    rfl
  have issues : (ofEnvelope checker validator ruleset external output earlier envelope
        signals).issues =
      earlier ++ (envelope.messages.map messageIssue ++ (statusIssue? envelope).toList ++
        report.issues) := by
    rw [isReport]
    rfl
  have before : output.assertionTotal = output.inputAssertions.total ∧
      output.assertionFailures = output.inputAssertions.failures := by
    rw [StepOutput.assertionTotal, StepOutput.assertionFailures, unreported]
    exact ⟨rfl, rfl⟩
  have noTotal := messages.countP_total
  have noFailures := messages.countP_failures
  constructor
  · intro tallies
    have sameTotal := tallies.total
    have sameFailures := tallies.failures
    rw [total, issues, List.countP_append, List.countP_append] at sameTotal
    rw [failures, issues, List.countP_append, List.countP_append] at sameFailures
    exact ⟨by omega, by omega⟩
  · intro tallies
    have sameTotal := tallies.total
    have sameFailures := tallies.failures
    refine ⟨?_, ?_⟩
    · rw [total, issues, List.countP_append, List.countP_append]
      omega
    · rw [failures, issues, List.countP_append, List.countP_append]
      omega

theorem tallies_ofInline {outcome : ValidationOutcome} (unasserted : Unasserted outcome.issues)
    (checker : Checker) (validator : Validator) (ruleset : Ruleset) (submission : Submission)
    (signals : Signals) :
    (ofInline checker validator ruleset submission signals outcome).Tallies where
  total := by
    rw [ofInline]
    dsimp only
    rw [List.countP_append, unasserted.countP_total, Nat.zero_add]
    rfl
  failures := by
    rw [ofInline]
    dsimp only
    rw [List.countP_append, unasserted.countP_failures, Nat.zero_add]
    rfl

theorem tallies_ofAction (type : String) (outcome : ActionOutcome) :
    (ofAction type outcome).Tallies where
  total := (unasserted_actionIssue type outcome).countP_total.symm
  failures := (unasserted_actionIssue type outcome).countP_failures.symm

end Verdict

/-! ### Conclusions -/

/-- A verdict counts the severities of its issues and, if it is trusted to, the assertions as well. -/
structure Verdict.Accounted (trusted : Prop) (verdict : Verdict) : Prop where
  counts : verdict.output.severityCounts = countIssues verdict.issues
  tallies : trusted → verdict.Tallies

/-- What a step comes to is accounted for, given the output that it has begun with. -/
def Conclusion.Accounted (trusted : Prop) (output : StepOutput) : Conclusion → Prop
  | .ended verdict => verdict.Accounted trusted
  | .pending left issues =>
    left.outputAssertions = .zero ∧ (trusted → left.Tallies issues)
  | .faulted _ => trusted → output.Tallies []

theorem Verdict.accounted_failing {trusted : Prop} {earlier : List Issue} {issue : Issue}
    {output : StepOutput} (none : issue.assertionId = none)
    (tallies : trusted → output.Tallies earlier) : (failing earlier issue output).Accounted trusted :=
  ⟨rfl, fun isTrusted => (tallies_failing none).mpr (tallies isTrusted)⟩

theorem Verdict.accounted_ofEnvelope {trusted : Prop} {earlier : List Issue} {output : StepOutput}
    (unreported : output.outputAssertions = .zero) (tallies : trusted → output.Tallies earlier)
    (checker : Checker) (validator : Validator) (ruleset : Ruleset) (external : ExternalValidator)
    (envelope : Envelope) (signals : Signals) :
    (ofEnvelope checker validator ruleset external output earlier envelope signals).Accounted
      trusted :=
  ⟨rfl, fun isTrusted => (tallies_ofEnvelope unreported _ _ _ _ _ _).mpr (tallies isTrusted)⟩

/-- A fault at the beginning of a step leaves it the counters that it has. -/
theorem Conclusion.accounted_ofFault {trusted : Prop} {output : StepOutput}
    (tallies : trusted → output.Tallies []) (fault : EngineFault) :
    (ofFault [] output fault).Accounted trusted output := by
  cases fault with
  | configuration detail => exact Verdict.accounted_failing rfl tallies
  | execution detail => exact Verdict.accounted_failing rfl tallies
  | _ => exact tallies

/-! ### A step whose job is handed over -/

section Handing

variable {mayAnswer : (request : Request) → request.Answer → Prop} {equipment : Equipment}
  {context : StepContext}

/-- The job of a step is handed over if the step is carried out. -/
def HandsOver (mayAnswer : (request : Request) → request.Answer → Prop) (equipment : Equipment)
    (step : Step) : Prop :=
  ¬ mayAnswer .backendAvailable false ∧ ∃ validator ruleset external,
    step.IsJob equipment.validators validator ruleset external

theorem tallies_handedOver (equipment : Equipment) (validator : Validator) (report : Rule.Report)
    (stepRun : StepRun) : (handedOver equipment validator report stepRun).Tallies report.issues :=
  ⟨rfl, rfl⟩

theorem tallies_withResponse (output : StepOutput) (response : JobResponse) (issues : List Issue) :
    (withResponse output response).Tallies issues ↔ output.Tallies issues :=
  ⟨fun tallies => ⟨tallies.total, tallies.failures⟩,
    fun tallies => ⟨tallies.total, tallies.failures⟩⟩

theorem missingEnvelope_assertionId (equipment : Equipment) (response : JobResponse) :
    (missingEnvelope equipment response).assertionId = none := rfl

/-- What a step leaves while it waits for a job counts what has been recorded for it. -/
theorem Midway.accounted {output : StepOutput} {issues : List Issue}
    (midway : Midway mayAnswer equipment context output issues) :
    output.outputAssertions = .zero ∧ (output.awaitsJob = true → output.Tallies issues) := by
  obtain ⟨validator, ruleset, external, _, _, _, rfl | ⟨response, _, _, _, rfl, recorded⟩⟩ := midway
  · exact ⟨rfl, fun awaits => nomatch awaits⟩
  · refine ⟨rfl, fun _ => ?_⟩
    have handed := tallies_handedOver equipment validator
      (inputReport equipment.checker validator ruleset context.submission context.signals)
      context.stepRun
    rw [tallies_withResponse]
    rcases recorded with rfl | rfl
    · exact handed
    · exact (StepOutput.tallies_append
        (unasserted_singleton (missingEnvelope_assertionId equipment response))).mpr handed

theorem Conclusion.accounted_ofLaunch {trusted : Prop} {output : StepOutput} (validator : Validator)
    (ruleset : Ruleset) (external : ExternalValidator) (report : Rule.Report) (stepRun : StepRun)
    (signals : Signals) (answer : Except BackendFault JobResponse) :
    (ofLaunch equipment validator ruleset external (handedOver equipment validator report stepRun)
      report.issues signals answer).Accounted trusted output := by
  have handed := tallies_handedOver equipment validator report stepRun
  cases answer with
  | error fault =>
    cases fault <;> exact Verdict.accounted_failing rfl fun _ => handed
  | ok response =>
    have answered := (tallies_withResponse _ response _).mpr handed
    unfold ofLaunch
    dsimp only
    split
    · split
      · exact Verdict.accounted_ofEnvelope rfl (fun _ => answered) _ _ _ _ _ _
      · exact Verdict.accounted_failing rfl fun _ => answered
    · exact ⟨rfl, fun _ => answered⟩

/-- The issues that inline validators find stand for no assertions. -/
def Unassertive (mayAnswer : (request : Request) → request.Answer → Prop) : Prop :=
  ∀ validator submission outcome,
    mayAnswer (.validate validator submission) (.ok outcome) → Unasserted outcome.issues

/-- Whatever carrying out a step comes to is accounted for, if the step has counted nothing yet or its
job is handed over. -/
theorem Concludes.accounted {trusted : Prop} {conclusion : Conclusion}
    (unassertive : Unassertive mayAnswer)
    (prepared : trusted →
      context.stepRun.output.Tallies [] ∨ HandsOver mayAnswer equipment context.step)
    (concludes : Concludes mayAnswer equipment context [] conclusion) :
    conclusion.Accounted trusted context.stepRun.output := by
  -- A step whose job is not handed over keeps the counters that it has begun with.
  have begun : ¬ HandsOver mayAnswer equipment context.step →
      trusted → context.stepRun.output.Tallies [] :=
    fun keeps isTrusted => (prepared isTrusted).resolve_right keeps
  unfold Concludes at concludes
  split at concludes
  · rename_i type params kind
    have keeps : ¬ HandsOver mayAnswer equipment context.step := by
      rintro ⟨_, _, _, _, isJob⟩
      exact not_isJob_of_action kind isJob
    split at concludes
    · rw [concludes]
      exact Conclusion.accounted_ofFault (begun keeps) _
    · obtain ⟨answer, _, rfl⟩ := concludes
      cases answer with
      | error fault => exact Conclusion.accounted_ofFault (begun keeps) _
      | ok outcome => exact ⟨rfl, fun _ => Verdict.tallies_ofAction type outcome⟩
  · rename_i validator ruleset kind
    split at concludes
    · rename_i fault resolved
      have keeps : ¬ HandsOver mayAnswer equipment context.step := by
        rintro ⟨_, _, _, _, isJob⟩
        have found := isJob.resolved kind
        rw [resolved] at found
        cases found
      rw [concludes]
      exact Conclusion.accounted_ofFault (begun keeps) _
    · rename_i resolved
      have keeps : ¬ HandsOver mayAnswer equipment context.step := by
        rintro ⟨_, _, _, _, isJob⟩
        have found := isJob.resolved kind
        rw [resolved] at found
        cases found
      obtain ⟨answer, may, rfl⟩ := concludes
      cases answer with
      | error fault => exact Conclusion.accounted_ofFault (begun keeps) _
      | ok outcome =>
        exact ⟨rfl, fun _ => Verdict.tallies_ofInline (unassertive _ _ _ may) _ _ _ _ _⟩
    · rcases concludes with ⟨missing, rfl⟩ | ⟨_, answer, _, rfl⟩
      · have keeps : ¬ HandsOver mayAnswer equipment context.step :=
          fun handsOver => handsOver.1 missing
        exact Conclusion.accounted_ofFault (begun keeps) _
      · exact Conclusion.accounted_ofLaunch _ _ _ _ _ _ _

end Handing

end Execution

end Vetting
