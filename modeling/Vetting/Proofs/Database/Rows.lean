import Vetting.Database.Row
import Vetting.Proofs.Workflow.Documents

/-!
Contract: rows lose nothing of the runs and step runs they stand for.

Owns:
- which runs and step runs the fields of their documents can hold;
- that they are got back from their rows, and which step runs have no row.

Does not own: the texts of moments, which have to denote the moments they are written for.
-/

namespace Vetting

/-- The numbers of the steps and of the summary fit their fields. -/
structure Run.Storable (run : Run) : Prop where
  steps : ∀ step ∈ run.steps, step.Storable
  summary : ∀ summary ∈ run.summary?, summary.Storable

namespace Database

theorem greatestAttempt_eq : (greatestAttempt : Int) = Width.greatestInt 32 := by decide

theorem RunRow.toRun_of_storable {run : Run} (storable : run.Storable)
    (returns : ∀ summary ∈ run.summary?, summary.generatedAt.Returns) :
    (ofRun run).toRun = .ok run :=
  toRun_ofRun run.status.ofValue?_toValue
    (Json.Value.asList?_map fun step member => Step.ofValue?_toValue (storable.steps step member))
    fun summary isThere =>
      RunSummary.ofValue?_toValue (storable.summary summary isThere) (returns summary isThere)

theorem StepRunRow.toStepRun_of_storable {stepRun : StepRun} (storable : stepRun.output.Storable)
    (inTime : (stepRun.attempt : Int) ≤ Width.greatestInt 32) :
    ∃ row, ofStepRun stepRun = .ok row ∧ row.toStepRun = .ok stepRun := by
  rw [← greatestAttempt_eq, Int.ofNat_le] at inTime
  exact toStepRun_ofStepRun inTime stepRun.status.ofValue?_toValue
    (StepOutput.ofValue?_toValue storable)

/-- Every run is got back from its row.  So is every step run whose attempt is an integer of 32
bits; a step run of a later attempt has no row. -/
theorem returned_from_rows :
    (∀ run : Run, run.Storable → (∀ summary ∈ run.summary?, summary.generatedAt.Returns) →
      (RunRow.ofRun run).toRun = .ok run) ∧
    (∀ stepRun : StepRun, stepRun.output.Storable →
      (stepRun.attempt : Int) ≤ Width.greatestInt 32 →
      ∃ row, StepRunRow.ofStepRun stepRun = .ok row ∧ row.toStepRun = .ok stepRun) ∧
    (∀ stepRun : StepRun, Width.greatestInt 32 < (stepRun.attempt : Int) →
      StepRunRow.ofStepRun stepRun =
        .error (.corrupt ("attempt " ++ toString (stepRun.attempt : Int)))) := by
  refine ⟨fun run => RunRow.toRun_of_storable, fun stepRun => StepRunRow.toStepRun_of_storable, ?_⟩
  intro stepRun tooLate
  rw [← greatestAttempt_eq, Int.ofNat_lt] at tooLate
  exact StepRunRow.ofStepRun_eq_error tooLate

end Database

namespace Example

open Json (Value)
open Rule (Assertion AssertionRule OperatorRule)

/-- Two assertions, a catalog and parameters with a nested document. -/
def archivedSteps : List Step := [
  ⟨1, "check", "", .validator ⟨"json", .object [("strict", .boolean true)],
      [⟨"total", "order.total", .output, true⟩]⟩
    ⟨some "orders", [
      ⟨"positive", some .output, some "total != null", .operator ⟨"total", .gt, .integer 0⟩,
        .warning, some "total is \x7b\x7btotal\x7d\x7d"⟩,
      Assertion.plain "named" (.expression "name != ''")]⟩⟩,
  ⟨-2, "tell", "Tell", .action "notify" (.array [.null, .float 0.5])⟩]

def archivedSummary : RunSummary :=
  ⟨.succeeded, none, 1, ⟨0, 1, 0, 0⟩, 2, 1, 1,
    [⟨"check", 1, "check", some .passed, 1, some 12, ⟨0, 1, 0, 0⟩, 2, 1, none⟩,
      ⟨"tell", -2, "Tell", none, 0, none, .zero, 0, 0, none⟩], ⟨1700000000, 250000000⟩⟩

def archived : Run :=
  ⟨⟨1⟩, ⟨2⟩, ⟨3⟩, archivedSteps, .succeeded, ⟨1700000000, 0⟩, none, none, none,
    some archivedSummary, false⟩

/-- A step run whose job took one and a half seconds. -/
def measured (attempt : Nat) : StepRun :=
  ⟨⟨4⟩, ⟨1⟩, "check", 1, .passed, attempt, ⟨1700000000, 0⟩, none, some 12,
    { StepOutput.empty with
      inputAssertions := ⟨2, 1, 0⟩, signals := [("score", .integer 7)]
      job? := some ⟨"local", "7", "in", "out", "key", some 1.5, none⟩
      envelopeStatus? := some .success }, none⟩

theorem returned_from_rows_archived :
    archived.Storable ∧ (∀ summary ∈ archived.summary?, summary.generatedAt.Returns) ∧
      (Database.RunRow.ofRun archived).toRun = .ok archived ∧
      (∃ row, Database.StepRunRow.ofStepRun (measured 3) = .ok row ∧
        row.toStepRun = .ok (measured 3)) ∧
      Database.StepRunRow.ofStepRun (measured 2147483648) =
        .error (.corrupt "attempt 2147483648") := by
  have steps : ∀ step ∈ archivedSteps, step.Storable := by
    unfold Step.Storable
    decide
  have one : SeverityCounts.Storable ⟨0, 1, 0, 0⟩ := by constructor <;> decide
  have none : SeverityCounts.Storable .zero := by constructor <;> decide
  have summarized : archivedSummary.Storable := by
    refine ⟨by decide, one, by decide, by decide, by decide, ?_⟩
    simp only [archivedSummary, List.forall_mem_cons]
    exact ⟨⟨by decide, by decide, by decide, one, by decide, by decide⟩,
      ⟨by decide, by decide, by decide, none, by decide, by decide⟩, List.forall_mem_nil _⟩
  have storable : archived.Storable := ⟨steps, fun summary is => Option.some.inj is ▸ summarized⟩
  have returns : ∀ summary ∈ archived.summary?, summary.generatedAt.Returns := by
    rintro _ ⟨⟩
    unfold Timestamp.Returns
    decide +kernel
  have output : (measured 3).output.Storable := by
    refine ⟨by constructor <;> decide, by constructor <;> decide, none, ?_⟩
    rintro _ ⟨⟩ duration ⟨⟩
    decide
  exact ⟨storable, returns, Database.returned_from_rows.1 archived storable returns,
    Database.returned_from_rows.2.1 (measured 3) output (by decide),
    Database.returned_from_rows.2.2 (measured 2147483648) (by decide)⟩

end Example

end Vetting
