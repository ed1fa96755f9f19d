import Vetting.Proofs.Json.Fields
import Vetting.Proofs.Scope.SignalSpace
import Vetting.Workflow.Run

/-!
Contract: steps, outputs and summaries are read back from the documents that stand for them.

Owns:
- which values fit the fields of a document;
- for each type of a step, of the output of a step and of a summary of a run, that the value of its
  document is the value that was written.

Does not own: the texts of moments, or documents that nobody has written this way.
-/

namespace Vetting

open Json (Value)
open Json.Value

/-! ### Names -/

theorem Severity.ofValue?_toValue (severity : Severity) :
    ofValue? severity.toValue = some severity := by
  cases severity <;> decide

theorem StepStatus.ofValue?_toValue (status : StepStatus) :
    ofValue? status.toValue = some status := by
  cases status <;> decide

theorem RunStatus.ofValue?_toValue (status : RunStatus) :
    ofValue? status.toValue = some status := by
  cases status <;> decide

theorem EnvelopeStatus.ofValue?_toValue (status : EnvelopeStatus) :
    ofValue? status.toValue = some status := by
  cases status <;> decide

namespace Rule

theorem Stage.ofValue?_toValue (stage : Stage) : ofValue? stage.toValue = some stage := by
  cases stage <;> decide

theorem Operator.ofValue?_toValue (operator : Operator) :
    ofValue? operator.toValue = some operator := by
  cases operator <;> decide

end Rule

/-! ### Steps -/

namespace Rule

theorem CatalogEntry.ofValue?_toValue (entry : CatalogEntry) :
    ofValue? entry.toValue = some entry := by
  simp [ofValue?, toValue, field?, fieldOr?, get?, Dictionary.lookup?, asText?, asBoolean?,
    Stage.ofValue?_toValue]

/-- The entry that tells the kind of a rule does not hide those of a comparison. -/
theorem AssertionRule.ofValue?_toValue (rule : AssertionRule) :
    ofValue? rule.toValue = some rule := by
  cases rule with
  | expression text => simp [ofValue?, toValue, field?, get?, Dictionary.lookup?, asText?]
  | operator rule =>
    simp [ofValue?, OperatorRule.ofValue?, toValue, field?, fieldOr?, get?, Dictionary.lookup?,
      asText?, Operator.ofValue?_toValue]

theorem Assertion.ofValue?_toValue (assertion : Assertion) :
    ofValue? assertion.toValue = some assertion := by
  have stage : assertion.toValue.optionalField? "stage" Stage.ofValue? = some assertion.stage? :=
    optionalField?_ofOption rfl rfl fun stage _ => stage.ofValue?_toValue
  have guarded : assertion.toValue.optionalField? "when" asText? = some assertion.guard? :=
    optionalField?_ofOption rfl rfl fun _ _ => rfl
  have message : assertion.toValue.optionalField? "message" asText? = some assertion.message? :=
    optionalField?_ofOption rfl rfl fun _ _ => rfl
  simp only [ofValue?, stage, guarded, message]
  simp [toValue, field?, fieldOr?, get?, Dictionary.lookup?, asText?,
    AssertionRule.ofValue?_toValue, Severity.ofValue?_toValue]

theorem Ruleset.ofValue?_toValue (ruleset : Ruleset) :
    ofValue? ruleset.toValue = some ruleset := by
  have id : ruleset.toValue.optionalField? "id" asText? = some ruleset.id? :=
    optionalField?_ofOption rfl rfl fun _ _ => rfl
  have assertions : asList? Assertion.ofValue? (.array (ruleset.assertions.map Assertion.toValue)) =
      some ruleset.assertions := asList?_map fun assertion _ => assertion.ofValue?_toValue
  simp only [ofValue?, id]
  simp [toValue, fieldOr?, Dictionary.lookup?, assertions]

end Rule

theorem Validator.ofValue?_toValue (validator : Validator) :
    ofValue? validator.toValue = some validator := by
  have catalog : asList? Rule.CatalogEntry.ofValue?
      (.array (validator.catalog.map Rule.CatalogEntry.toValue)) = some validator.catalog :=
    asList?_map fun entry _ => entry.ofValue?_toValue
  simp [ofValue?, toValue, field?, fieldOr?, get?, Dictionary.lookup?, asText?, catalog]

theorem StepKind.ofValue?_toValue (kind : StepKind) : ofValue? kind.toValue = some kind := by
  cases kind with
  | validator validator ruleset =>
    simp [ofValue?, toValue, field?, fieldOr?, get?, Dictionary.lookup?, asText?,
      validator.ofValue?_toValue, ruleset.ofValue?_toValue]
  | action name params =>
    simp [ofValue?, toValue, field?, fieldOr?, get?, Dictionary.lookup?, asText?]

/-- The order of the step fits its field. -/
def Step.Storable (step : Step) : Prop := Width.HoldsSigned 32 step.order

theorem Step.ofValue?_toValue {step : Step} (storable : step.Storable) :
    ofValue? step.toValue = some step := by
  simp [ofValue?, toValue, field?, fieldOr?, get?, Dictionary.lookup?, asText?,
    asInt32?_integer storable, step.kind.ofValue?_toValue]

/-! ### Outputs of steps -/

/-- The counts fit their fields. -/
structure SeverityCounts.Storable (counts : SeverityCounts) : Prop where
  error : Width.Holds 32 counts.error
  warning : Width.Holds 32 counts.warning
  info : Width.Holds 32 counts.info
  success : Width.Holds 32 counts.success

theorem SeverityCounts.ofValue?_toValue {counts : SeverityCounts} (storable : counts.Storable) :
    ofValue? counts.toValue = some counts := by
  simp [ofValue?, toValue, field?, get?, Dictionary.lookup?, asNat32?_natural storable.error,
    asNat32?_natural storable.warning, asNat32?_natural storable.info,
    asNat32?_natural storable.success]

/-- The counts fit their fields. -/
structure AssertionStats.Storable (stats : AssertionStats) : Prop where
  total : Width.Holds 32 stats.total
  failures : Width.Holds 32 stats.failures
  errorFailures : Width.Holds 32 stats.errorFailures

theorem AssertionStats.ofValue?_toValue {stats : AssertionStats} (storable : stats.Storable) :
    ofValue? stats.toValue = some stats := by
  simp [ofValue?, toValue, field?, get?, Dictionary.lookup?, asNat32?_natural storable.total,
    asNat32?_natural storable.failures, asNat32?_natural storable.errorFailures]

/-- A duration that is no finite number has no document. -/
def JobInfo.Storable (info : JobInfo) : Prop :=
  ∀ duration ∈ info.durationSeconds, duration.isFinite = true

theorem JobInfo.ofValue?_toValue {info : JobInfo} (storable : info.Storable) :
    ofValue? info.toValue = some info := by
  have duration : info.toValue.optionalField? "duration_seconds" asFloat? =
      some info.durationSeconds :=
    optionalField?_leftOut float (by simp [Dictionary.lookup?_append, lookup?_entryIfSome,
      Dictionary.lookup?]) rfl fun duration is => asFloat?_float (storable duration is)
  have message : info.toValue.optionalField? "error_message" asText? = some info.errorMessage :=
    optionalField?_leftOut text (by simp [Dictionary.lookup?_append, lookup?_entryIfSome,
      Dictionary.lookup?]) rfl fun _ _ => rfl
  simp only [ofValue?, duration, message]
  simp [toValue, field?, get?, Dictionary.lookup?, Dictionary.lookup?_append, lookup?_entryIfSome,
    asText?]

/-- The numbers of the output fit their fields. -/
structure StepOutput.Storable (output : StepOutput) : Prop where
  inputAssertions : output.inputAssertions.Storable
  outputAssertions : output.outputAssertions.Storable
  severityCounts : output.severityCounts.Storable
  job : ∀ job ∈ output.job?, job.Storable

theorem StepOutput.ofValue?_toValue {output : StepOutput} (storable : output.Storable) :
    ofValue? output.toValue = some output := by
  have job : output.toValue.optionalField? "execution" JobInfo.ofValue? = some output.job? :=
    optionalField?_leftOut JobInfo.toValue (by simp [Dictionary.lookup?_append, lookup?_entryIfSome,
      Dictionary.lookup?]) rfl fun job isJob => JobInfo.ofValue?_toValue (storable.job job isJob)
  have status : output.toValue.optionalField? "envelope_status" EnvelopeStatus.ofValue? =
      some output.envelopeStatus? :=
    optionalField?_leftOut EnvelopeStatus.toValue (by simp [Dictionary.lookup?_append,
      lookup?_entryIfSome, Dictionary.lookup?]) rfl fun status _ => status.ofValue?_toValue
  have hash : output.toValue.optionalField? "config_hash" asText? = some output.configHash? :=
    optionalField?_leftOut text (by simp [Dictionary.lookup?_append, lookup?_entryIfSome,
      Dictionary.lookup?]) rfl fun _ _ => rfl
  have message : output.toValue.optionalField? "message" asText? = some output.message? :=
    optionalField?_leftOut text (by simp [Dictionary.lookup?_append, lookup?_entryIfSome,
      Dictionary.lookup?]) rfl fun _ _ => rfl
  simp only [ofValue?, job, status, hash, message]
  simp [toValue, fieldOr?, Dictionary.lookup?, Dictionary.lookup?_append, lookup?_entryIfSome,
    asBoolean?, asDictionary?_object, AssertionStats.ofValue?_toValue storable.inputAssertions,
    AssertionStats.ofValue?_toValue storable.outputAssertions,
    SeverityCounts.ofValue?_toValue storable.severityCounts]

/-! ### Summaries -/

/-- The numbers of the summary fit their fields. -/
structure StepSummary.Storable (summary : StepSummary) : Prop where
  stepOrder : Width.HoldsSigned 32 summary.stepOrder
  attempt : Width.Holds 32 summary.attempt
  durationMs : ∀ duration ∈ summary.durationMs, Width.HoldsSigned 64 duration
  findings : summary.findings.Storable
  assertionTotal : Width.Holds 32 summary.assertionTotal
  assertionFailures : Width.Holds 32 summary.assertionFailures

theorem StepSummary.ofValue?_toValue {summary : StepSummary} (storable : summary.Storable) :
    ofValue? summary.toValue = some summary := by
  have status : summary.toValue.optionalField? "status" StepStatus.ofValue? = some summary.status :=
    optionalField?_ofOption rfl rfl fun status _ => status.ofValue?_toValue
  have duration : summary.toValue.optionalField? "duration_ms" asInt64? = some summary.durationMs :=
    optionalField?_ofOption rfl rfl fun duration is =>
      asInt64?_integer (storable.durationMs duration is)
  have error : summary.toValue.optionalField? "error" asText? = some summary.error :=
    optionalField?_ofOption rfl rfl fun _ _ => rfl
  simp only [ofValue?, status, duration, error]
  simp [toValue, field?, get?, Dictionary.lookup?, asText?, asInt32?_integer storable.stepOrder,
    asNat32?_natural storable.attempt, asNat32?_natural storable.assertionTotal,
    asNat32?_natural storable.assertionFailures, SeverityCounts.ofValue?_toValue storable.findings]

/-- The text of a moment denotes it. -/
def Timestamp.Returns (moment : Timestamp) : Prop := ofValue? moment.toValue = some moment

/-- The numbers of the summary fit their fields. -/
structure RunSummary.Storable (summary : RunSummary) : Prop where
  totalFindings : Width.Holds 32 summary.totalFindings
  severity : summary.severity.Storable
  assertionTotal : Width.Holds 32 summary.assertionTotal
  assertionFailures : Width.Holds 32 summary.assertionFailures
  assertionPasses : Width.Holds 32 summary.assertionPasses
  steps : ∀ step ∈ summary.steps, step.Storable

theorem RunSummary.ofValue?_toValue {summary : RunSummary} (storable : summary.Storable)
    (returns : summary.generatedAt.Returns) : ofValue? summary.toValue = some summary := by
  have error : summary.toValue.optionalField? "error" asText? = some summary.error :=
    optionalField?_ofOption rfl rfl fun _ _ => rfl
  have steps : asList? StepSummary.ofValue? (.array (summary.steps.map StepSummary.toValue)) =
      some summary.steps :=
    asList?_map fun step member => StepSummary.ofValue?_toValue (storable.steps step member)
  have moment : Timestamp.ofValue? summary.generatedAt.toValue = some summary.generatedAt := returns
  simp only [ofValue?, error]
  simp [toValue, field?, get?, Dictionary.lookup?, moment, steps,
    asNat32?_natural storable.totalFindings, asNat32?_natural storable.assertionTotal,
    asNat32?_natural storable.assertionFailures, asNat32?_natural storable.assertionPasses,
    RunStatus.ofValue?_toValue, SeverityCounts.ofValue?_toValue storable.severity]

end Vetting
