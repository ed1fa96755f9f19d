import Vetting.Proofs.Rule.Outcome

/-!
Contract: a pass over the assertions of a stage.

Owns:
- a pass puts the questions of its assertions in their order and ends at the first one for which
  the evaluator is lacking;
- the report of a pass, from the issues of its assertions;
- assertions passed over change nothing;
- the counts of a report, from what the rules have evaluated to.

Does not own: what a report means for its step (`Vetting.Proofs.Step.Blame`).
-/

namespace Vetting

namespace Rule

open Scope (StageInput)

namespace Checker

variable (checker : Checker) (input : StageInput)

/-! ### All assertions of a stage -/

section Whole

variable (assertions : List Assertion)

/-- The assertions before the first one for which the evaluator is lacking. -/
def served : List Assertion :=
  assertions.takeWhile fun assertion => (checker.lack? input assertion).isNone

/-- The first assertion for which the evaluator is lacking. -/
def unserved? : Option Assertion :=
  assertions.find? fun assertion => (checker.lack? input assertion).isSome

/-- The assertions whose rules a pass settles. -/
def rated : List Assertion := (checker.served input assertions).filter (checker.admits input)

/-- The questions asked on a pass. -/
def asked : List Question :=
  (checker.served input assertions ++ (checker.unserved? input assertions).toList).flatMap
    (checker.questions input)

/-- What a pass says in the end if the evaluator is lacking for an assertion. -/
def closing : List Issue :=
  match assertions.findSome? (checker.lack? input) with
  | some detail => (Report.unavailable input.stage detail).issues
  | none => []

/-- The report of a pass. -/
def reportOf : Report where
  issues := (checker.rated input assertions).map (checker.issueFor input) ++
    checker.closing input assertions
  halted := (checker.unserved? input assertions).isSome

end Whole

section Whole

variable {checker input} {assertion : Assertion} {rest : List Assertion} {detail : String}

theorem asked_cons_of_lacking (lacking : checker.lack? input assertion = some detail) :
    checker.asked input (assertion :: rest) = checker.questions input assertion := by
  simp [asked, served, unserved?, lacking]

theorem asked_cons_of_serving (serving : checker.lack? input assertion = none) :
    checker.asked input (assertion :: rest) =
      checker.questions input assertion ++ checker.asked input rest := by
  simp [asked, served, unserved?, serving]

theorem reportOf_cons_of_lacking (lacking : checker.lack? input assertion = some detail) :
    checker.reportOf input (assertion :: rest) = .unavailable input.stage detail := by
  simp [reportOf, rated, served, unserved?, closing, lacking, Report.unavailable]

theorem reportOf_cons_of_refused (serving : checker.lack? input assertion = none)
    (refused : ¬ checker.admits input assertion = true) :
    checker.reportOf input (assertion :: rest) = checker.reportOf input rest := by
  simp [reportOf, rated, served, unserved?, closing, serving, refused]

theorem reportOf_cons_of_admitted (serving : checker.lack? input assertion = none)
    (admitted : checker.admits input assertion = true) :
    checker.reportOf input (assertion :: rest) =
      { checker.reportOf input rest with
        issues := checker.issueFor input assertion :: (checker.reportOf input rest).issues } := by
  simp [reportOf, rated, served, unserved?, closing, serving, admitted]

end Whole

/-- A pass asks its questions in order, and then it leaves its report. -/
theorem checkEach_asking {m : Type → Type} [Monad m] [LawfulMonad m] (note : Question → m Unit)
    (assertions : List Assertion) :
    checkEach (checker.asking note) checker.limits (input.names checker.bareKeys) input.payload
        input.stage assertions =
      (checker.asked input assertions).forM note >>=
        fun _ => pure (checker.reportOf input assertions) := by
  induction assertions with
  | nil => simp [checkEach, asked, served, unserved?, reportOf, rated, closing, Report.empty]
  | cons assertion rest inductionHypothesis =>
    rw [checkEach, guardAnswer_asking, bind_assoc]
    simp only [pure_bind]
    -- The pass ends here exactly if the evaluator is lacking for a question of this assertion:
    -- its guard, or else the rule of one that the guard admits.
    cases lack : checker.lack? input assertion with
    | some detail =>
      rw [asked_cons_of_lacking lack, reportOf_cons_of_lacking lack, questions]
      by_cases admitted : checker.admits input assertion = true
      · have isOutcome := outcome_of_lacking ((lack?_of_admits admitted).symm.trans lack)
        rw [guardReply_of_admits admitted, if_pos admitted]
        simp only [mainOutcome_asking, bind_assoc, pure_bind, isOutcome, Assertion.issueOf]
        simp only [List.forM_eq_forM, List.forM_append, bind_assoc]
      · rw [guardReply_of_not_admits admitted, lack, if_neg admitted, List.append_nil]
        rfl
    | none =>
      rw [asked_cons_of_serving lack, questions]
      by_cases admitted : checker.admits input assertion = true
      · have available := (lack?_of_admits admitted).symm.trans lack
        rw [guardReply_of_admits admitted, if_pos admitted, reportOf_cons_of_admitted lack admitted]
        simp only [mainOutcome_asking, bind_assoc, pure_bind, (issueOf_outcome available).1,
          inductionHypothesis]
        simp only [List.forM_eq_forM, List.forM_append, bind_assoc]
      · rw [guardReply_of_not_admits admitted, lack, if_neg admitted, List.append_nil,
          reportOf_cons_of_refused lack admitted]
        simp only [Option.map_none, Option.getD_none, inductionHypothesis]
        simp only [List.forM_eq_forM, List.forM_append, bind_assoc]

/-- The assertions of a stage. -/
def ofStage (stage : Stage) (assertions : List Assertion) : List Assertion :=
  assertions.filter fun assertion => assertion.stage = stage

theorem check_eq_reportOf (assertions : List Assertion) :
    checker.check assertions input =
      checker.reportOf input (ofStage input.stage assertions) :=
  checker.checkEach_asking input (fun _ => (pure () : Id Unit)) (ofStage input.stage assertions)

/-- Takes a question down. -/
def noteDown (question : Question) : StateM (List Question) Unit := modify (· ++ [question])

theorem run_forM_noteDown (questions earlier : List Question) :
    (questions.forM noteDown).run earlier = ((), earlier ++ questions) := by
  induction questions generalizing earlier with
  | nil =>
    rw [List.append_nil]
    rfl
  | cons question rest inductionHypothesis =>
    rw [List.append_cons, ← inductionHypothesis]
    rfl

/-- On a pass the questions are asked that its assertions give rise to. -/
theorem hearing_eq (assertions : List Assertion) :
    checker.respondent.hearing checker.limits checker.bareKeys assertions input =
      (checker.check assertions input,
        checker.asked input (ofStage input.stage assertions)) := by
  have passed : checkWith checker.respondent.ask checker.limits checker.bareKeys assertions input =
      (checker.asked input (ofStage input.stage assertions)).forM noteDown >>=
        fun _ => pure (checker.reportOf input (ofStage input.stage assertions)) :=
    checker.checkEach_asking input noteDown (ofStage input.stage assertions)
  rw [Respondent.hearing, passed, StateT.run_bind, run_forM_noteDown, check_eq_reportOf]
  rfl

section Shape

variable {checker input} {assertion : Assertion} {assertions : List Assertion}

theorem serving_of_served (served : assertion ∈ checker.served input assertions) :
    checker.lack? input assertion = none :=
  Option.isNone_iff_eq_none.mp (List.all_eq_true.mp List.all_takeWhile assertion served)

/-- The issue of an assertion stands for it, and is as grave as what its rule evaluates to. -/
theorem issueFor_of_rated (rated : assertion ∈ checker.rated input assertions) :
    (checker.issueFor input assertion).assertionId = some assertion.id ∧
      (checker.issueFor input assertion).severity =
        assertion.gravity (checker.truth? input assertion) := by
  obtain ⟨served, admitted⟩ := List.mem_filter.mp rated
  exact (issueOf_outcome ((lack?_of_admits admitted).symm.trans (serving_of_served served))).2

theorem unserved?_isSome :
    (checker.unserved? input assertions).isSome =
      (assertions.findSome? (checker.lack? input)).isSome := by
  rw [Bool.eq_iff_iff, unserved?, List.find?_isSome, List.findSome?_isSome_iff]

/-- The evaluator is lacking for an assertion exactly if it is lacking for a question asked. -/
theorem isSome_unserved?_iff :
    (checker.unserved? input assertions).isSome = true ↔
      ∃ question ∈ checker.asked input assertions, ∃ detail,
        checker.answer question = .error (.unavailable detail) := by
  constructor
  · intro isSome
    obtain ⟨assertion, unserved⟩ := Option.isSome_iff_exists.mp isSome
    obtain ⟨detail, lacking⟩ := Option.isSome_iff_exists.mp
      (List.find?_some (p := fun other => (checker.lack? input other).isSome) unserved)
    obtain ⟨question, asks, silent⟩ := List.exists_of_findSome?_eq_some lacking
    refine ⟨question, List.mem_flatMap.mpr ⟨assertion, ?_, asks⟩, detail,
      lackOf?_eq_some.mp silent⟩
    rw [unserved]
    exact List.mem_append_right _ (.head _)
  · rintro ⟨question, asked, detail, silent⟩
    obtain ⟨assertion, member, asks⟩ := List.mem_flatMap.mp asked
    rcases List.mem_append.mp member with served | unserved
    · have available := List.findSome?_eq_none_iff.mp (serving_of_served served) question asks
      rw [lackOf?_eq_some.mpr silent] at available
      cases available
    · exact Option.isSome_of_mem (Option.mem_toList.mp unserved)

theorem closing_of_unserved (unserved : (checker.unserved? input assertions).isSome = true) :
    ∃ issue, checker.closing input assertions = [issue] ∧ issue.severity = .error ∧
      issue.code = "evaluator_unavailable" ∧ issue.assertionId = none := by
  rw [unserved?_isSome] at unserved
  obtain ⟨detail, lacking⟩ := Option.isSome_iff_exists.mp unserved
  rw [closing, lacking]
  exact ⟨_, rfl, rfl, rfl, rfl⟩

theorem closing_of_served (served : (checker.unserved? input assertions).isSome = false) :
    checker.closing input assertions = [] := by
  rw [unserved?_isSome, Option.isSome_eq_false_iff, Option.isNone_iff_eq_none] at served
  rw [closing, served]

/-- Assertions that are passed over do not change what the others come to. -/
theorem reportOf_filter {keep : Assertion → Bool}
    (idle : ∀ assertion ∈ assertions, keep assertion = false →
      checker.lack? input assertion = none ∧ ¬ checker.admits input assertion = true) :
    checker.reportOf input (assertions.filter keep) = checker.reportOf input assertions := by
  induction assertions with
  | nil => rfl
  | cons assertion rest inductionHypothesis =>
    have later := inductionHypothesis fun other member => idle other (.tail _ member)
    cases kept : keep assertion with
    | false =>
      obtain ⟨serving, refused⟩ := idle assertion (.head _) kept
      rw [List.filter_cons_of_neg (by rw [kept]; exact Bool.false_ne_true), later,
        reportOf_cons_of_refused serving refused]
    | true =>
      rw [List.filter_cons_of_pos kept]
      cases lack : checker.lack? input assertion with
      | some detail => rw [reportOf_cons_of_lacking lack, reportOf_cons_of_lacking lack]
      | none =>
        by_cases admitted : checker.admits input assertion = true
        · rw [reportOf_cons_of_admitted lack admitted, reportOf_cons_of_admitted lack admitted,
            later]
        · rw [reportOf_cons_of_refused lack admitted, reportOf_cons_of_refused lack admitted,
            later]

end Shape

/-- The assertion is of another stage, or its guard neither holds nor is left without an answer for
want of an evaluator. -/
def PassesOver (assertion : Assertion) : Prop :=
  assertion.stage ≠ input.stage ∨
    ∃ guard, assertion.guard? = some guard ∧
      checker.answer (checker.question input guard) ≠ .ok true ∧
      ∀ detail, checker.answer (checker.question input guard) ≠ .error (.unavailable detail)

theorem check_filter {assertions : List Assertion} {keep : Assertion → Bool}
    (idle : ∀ assertion ∈ assertions, keep assertion = false →
      checker.PassesOver input assertion) :
    checker.check (assertions.filter keep) input = checker.check assertions input := by
  have swapped : ofStage input.stage (assertions.filter keep) =
      (ofStage input.stage assertions).filter keep := by
    rw [ofStage, ofStage, List.filter_filter, List.filter_filter]
    exact List.filter_congr fun _ _ => Bool.and_comm _ _
  rw [check_eq_reportOf, check_eq_reportOf, swapped]
  refine reportOf_filter fun assertion member dropped => ?_
  obtain ⟨listed, own⟩ := List.mem_filter.mp member
  rcases idle assertion listed dropped with other | ⟨guard, isGuard, fails, available⟩
  · exact absurd (of_decide_eq_true own) other
  · have asks : checker.guardQuestion? input assertion = some (checker.question input guard) := by
      rw [guardQuestion?, isGuard, Option.map_some]
    have refused : ¬ checker.admits input assertion = true :=
      fun admitted => fails ((admits_of_guard asks).mp admitted)
    refine ⟨?_, refused⟩
    rw [lack?_of_not_admits refused, asks, Option.bind_some, Option.eq_none_iff_forall_ne_some]
    exact fun detail lacking => available detail (lackOf?_eq_some.mp lacking)

/-- The shape of the report of a pass: in their order the issues of the assertions of the stage
that the guard admits, up to the first one for which the evaluator is lacking, and then the issue
that says so.  Nothing is asked after that, and assertions passed over change nothing. -/
theorem check_shape (checker : Checker) (input : StageInput) (assertions : List Assertion) :
    (checker.check assertions input).issues =
        (checker.rated input (ofStage input.stage assertions)).map (checker.issueFor input) ++
          checker.closing input (ofStage input.stage assertions) ∧
    (∀ assertion ∈ checker.rated input (ofStage input.stage assertions),
      (checker.issueFor input assertion).assertionId = some assertion.id) ∧
    (((checker.check assertions input).halted = true ∧
        ∃ issue, checker.closing input (ofStage input.stage assertions) = [issue] ∧
          issue.severity = .error ∧ issue.code = "evaluator_unavailable" ∧
          issue.assertionId = none) ∨
      (checker.check assertions input).halted = false ∧
        checker.closing input (ofStage input.stage assertions) = []) ∧
    ((checker.check assertions input).halted = true ↔
      ∃ question ∈ checker.asked input (ofStage input.stage assertions), ∃ detail,
        checker.answer question = .error (.unavailable detail)) ∧
    checker.respondent.hearing checker.limits checker.bareKeys assertions input =
      (checker.check assertions input, checker.asked input (ofStage input.stage assertions)) ∧
    ∀ keep : Assertion → Bool,
      (∀ assertion ∈ assertions, keep assertion = false → checker.PassesOver input assertion) →
        checker.check (assertions.filter keep) input = checker.check assertions input := by
  refine ⟨?_, ?_, ?_, ?_, checker.hearing_eq input assertions,
    fun keep idle => checker.check_filter input idle⟩
  · rw [check_eq_reportOf]
    rfl
  · exact fun assertion rated => (issueFor_of_rated rated).1
  · rw [check_eq_reportOf]
    cases unserved : (checker.unserved? input (ofStage input.stage assertions)).isSome with
    | true => exact .inl ⟨unserved, closing_of_unserved unserved⟩
    | false => exact .inr ⟨unserved, closing_of_served unserved⟩
  · rw [check_eq_reportOf]
    exact isSome_unserved?_iff

/-! ### Counts -/

section Counts

variable {checker input} {assertions : List Assertion}

theorem countP_closing (counted : Issue → Bool)
    (linkedOnly : ∀ issue, counted issue = true → issue.assertionId.isSome = true) :
    (checker.closing input assertions).countP counted = 0 := by
  rw [List.countP_eq_zero]
  intro issue member isCounted
  cases unserved : (checker.unserved? input assertions).isSome with
  | true =>
    obtain ⟨last, only, -, -, unlinked⟩ := closing_of_unserved unserved
    rw [only, List.mem_singleton] at member
    have linked := linkedOnly issue isCounted
    rw [member, unlinked] at linked
    cases linked
  | false =>
    rw [closing_of_served unserved] at member
    cases member

/-- Counting issues that stand for assertions is counting assertions. -/
theorem countP_reportOf {counted : Issue → Bool} {property : Assertion → Bool}
    (linkedOnly : ∀ issue, counted issue = true → issue.assertionId.isSome = true)
    (same : ∀ assertion ∈ checker.rated input assertions,
      counted (checker.issueFor input assertion) = property assertion) :
    (checker.reportOf input assertions).issues.countP counted =
      (checker.rated input assertions).countP property := by
  rw [reportOf, List.countP_append, countP_closing counted linkedOnly, Nat.add_zero,
    List.countP_map]
  exact List.countP_congr fun assertion rated => by
    rw [Function.comp_apply, same assertion rated]

end Counts

/-- A pass counts the assertions whose rules it has settled; as failures those whose rules have
ended in an error, or are false and of a severity other than success; the others have passed. -/
theorem stats_check (checker : Checker) (input : StageInput) (assertions : List Assertion) :
    (checker.check assertions input).stats.total =
        (checker.rated input (ofStage input.stage assertions)).length ∧
    (checker.check assertions input).stats.failures =
        (checker.rated input (ofStage input.stage assertions)).countP (fun assertion =>
          checker.truth? input assertion = none ∨
            checker.truth? input assertion = some false ∧ assertion.severity ≠ .success) ∧
    (checker.check assertions input).stats.passed =
        (checker.rated input (ofStage input.stage assertions)).countP (fun assertion =>
          checker.truth? input assertion = some true ∨
            checker.truth? input assertion = some false ∧ assertion.severity = .success) := by
  have total : (checker.check assertions input).stats.total =
      (checker.rated input (ofStage input.stage assertions)).length := by
    rw [check_eq_reportOf, ← List.countP_true]
    refine countP_reportOf (fun _ linked => linked) fun assertion rated => ?_
    rw [(issueFor_of_rated rated).1, Option.isSome_some]
  have failures : (checker.check assertions input).stats.failures =
      (checker.rated input (ofStage input.stage assertions)).countP (fun assertion =>
        checker.truth? input assertion = none ∨
          checker.truth? input assertion = some false ∧ assertion.severity ≠ .success) := by
    rw [check_eq_reportOf]
    refine countP_reportOf (fun _ failed => ((Bool.and_eq_true _ _).mp failed).1)
      fun assertion rated => ?_
    obtain ⟨linked, grave⟩ := issueFor_of_rated rated
    rw [Issue.isFailedAssertion, linked, grave, Option.isSome_some, Bool.true_and]
    match checker.truth? input assertion with
    | some true => rfl
    | some false =>
      rw [Assertion.gravity]
      cases assertion.severity <;> rfl
    | none => rfl
  refine ⟨total, failures, ?_⟩
  rw [AssertionStats.passed, total, failures, List.length_eq_countP_add_countP,
    Nat.add_sub_cancel_left]
  refine List.countP_congr fun assertion _ => ?_
  match checker.truth? input assertion with
  | some true => simp
  | some false => simp
  | none => simp

end Checker

end Rule

namespace Example

open Rule Scope Formula

/-- A checker that knows a few expressions. -/
def knowing : Checker where
  evaluator := fun expression _ => .answered 0 (match expression with
    | "yes" => .ok true
    | "no" => .ok false
    | "gone" => .error (.unavailable "no evaluator")
    | _ => .error (.unknownIdentifier expression))
  limits := .standard
  bareKeys := true

/-- An assertion of the other stage, and one that its guard does not admit. -/
def passedOver : List Assertion := [
  { Assertion.plain "elsewhere" (.expression "yes") with stage? := some .output },
  { Assertion.plain "refused" (.expression "yes") with guard? := some "no" }]

/-- Two assertions are settled until the evaluator is lacking for the third. -/
def checked : List Assertion := [
  { Assertion.plain "tolerated" (.expression "no") with severity := .success },
  Assertion.plain "unknown" (.expression "other"),
  Assertion.plain "gone" (.expression "gone"),
  Assertion.plain "late" (.expression "yes")]

theorem passesOver_passedOver : ∀ assertion ∈ passedOver, knowing.PassesOver blank assertion := by
  intro assertion member
  rcases List.mem_cons.mp member with rfl | later
  · exact .inl (by decide)
  · obtain rfl := List.mem_singleton.mp later
    refine .inr ⟨"no", rfl, ?_⟩
    have answered : knowing.answer (knowing.question blank "no") = .ok false := rfl
    rw [answered]
    exact ⟨nofun, nofun⟩

/-- The assertions passed over leave nothing; the third one that is checked ends the pass. -/
theorem shape_checked :
    (knowing.check (passedOver ++ checked) blank).issues.map Issue.assertionId =
        [some "tolerated", some "unknown", none] ∧
      (knowing.check (passedOver ++ checked) blank).halted = true ∧
      knowing.check checked blank = knowing.check (passedOver ++ checked) blank := by
  obtain ⟨issues, -, -, -, -, kept⟩ := knowing.check_shape blank (passedOver ++ checked)
  refine ⟨?_, by decide, ?_⟩
  · rw [issues]
    decide
  · refine kept (fun assertion => assertion.id ∉ passedOver.map Assertion.id) ?_
    intro assertion member dropped
    rcases List.mem_append.mp member with idle | listed
    · exact passesOver_passedOver assertion idle
    · have keeps : ∀ id ∈ checked.map Assertion.id, id ∉ passedOver.map Assertion.id := by decide
      exact absurd (keeps _ (List.mem_map_of_mem listed)) (of_decide_eq_false dropped)

/-- A false assertion of severity success is no failure. -/
theorem not_stats_of_truth :
    ¬ ∀ (checker : Checker) (input : StageInput) (assertions : List Assertion),
      (checker.check assertions input).stats.total =
          (checker.rated input (Checker.ofStage input.stage assertions)).length ∧
      (checker.check assertions input).stats.failures =
          (checker.rated input (Checker.ofStage input.stage assertions)).countP (fun assertion =>
            checker.truth? input assertion = some false ∨
              checker.truth? input assertion = none) ∧
      (checker.check assertions input).stats.passed =
          (checker.rated input (Checker.ofStage input.stage assertions)).countP
            (fun assertion => checker.truth? input assertion = some true) := by
  intro claimed
  have counts := (claimed knowing blank checked).2.1
  revert counts
  decide

end Example

end Vetting
