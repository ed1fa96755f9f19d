import Vetting.Proofs.Program.Asking
import Vetting.Proofs.Run.Turns

/-!
Contract: operations as somebody invokes them.

Owns:
- `Invocation`: an execution, a callback or a cancellation, whatever becomes of it;
- that every invocation keeps step runs in order;
- `Chronicle`: invocations one after the other, each as far as it gets, with all turns taken;
- what holds of a chronicle if every turn leaves it so.

Does not own: what is true of a chronicle.
-/

namespace Vetting.Execution

/-- An operation that somebody invokes. -/
inductive Invocation where
  | execute (runId : Uuid) (resumeFrom : Option Int)
  | callback (stepRunId : Uuid) (envelope : Envelope) (key? : Option String)
  | cancel (runId : Uuid)

def Invocation.program (equipment : Equipment) : Invocation → Program Unit
  | .execute runId resumeFrom => (Execution.execute equipment runId resumeFrom).run.forgetful
  | .callback stepRunId envelope key? =>
    (completeCallback equipment stepRunId envelope key?).run.forgetful
  | .cancel runId => (Execution.cancel runId).run.forgetful

section Invocation

variable {mayAnswer : (request : Request) → request.Answer → Prop} {known : Uuid → Prop}

theorem Invocation.keepsRecords (invocation : Invocation) (equipment : Equipment) :
    (invocation.program equipment).Heeds (recordkeeping mayAnswer known) .blank
      fun _ _ => True := by
  cases invocation with
  | execute runId resumeFrom => exact (heeds_execute equipment runId resumeFrom).forgetful
  | callback stepRunId envelope key? =>
    have free : Sight.blank.Free mayAnswer stepRunId := fun handed => handed.elim
    exact (heeds_completeCallback equipment stepRunId envelope key? free).forgetful
  | cancel runId => exact (heeds_cancel runId).forgetful

/-- Invocations one after the other, each of which may be cut short: the turns that they have taken,
and the world. -/
inductive Chronicle (mayAnswer : (request : Request) → request.Answer → Prop)
    (equipment : Equipment) (origin : World) : List (Turn Unit) → World → Prop
  | start : Chronicle mayAnswer equipment origin [] origin
  | invoked {turns later : List (Turn Unit)} {world after : World} {rest : Unit → Program Unit}
      (so : Chronicle mayAnswer equipment origin turns world) (invocation : Invocation)
      (interleaves : Interleaves mayAnswer (fun _ => invocation.program equipment) world later rest
        after) :
    Chronicle mayAnswer equipment origin (turns ++ later) after

omit known in
/-- Taking turns does not depend on what becomes of the results. -/
theorem Interleaves.forgetful {ι α : Type} [DecidableEq ι] {programs rest : ι → Program α}
    {origin world : World} {turns : List (Turn ι)}
    (interleaves : Interleaves mayAnswer programs origin turns rest world) :
    Interleaves mayAnswer (fun who => (programs who).forgetful) origin turns
      (fun who => (rest who).forgetful) world := by
  induction interleaves with
  | start => exact .start
  | failing _ failing inductionHypothesis => exact .failing inductionHypothesis failing
  | @turn turns rest world after request next answer _ who asks answers inductionHypothesis =>
    have asksStill : (rest who).forgetful = .ask request fun answer => (next answer).forgetful := by
      rw [asks]
      rfl
    have left : (fun other => (Function.update rest who (next answer) other).forgetful) =
        Function.update (fun other => (rest other).forgetful) who (next answer).forgetful :=
      Function.comp_update Program.forgetful rest who (next answer)
    rw [left]
    exact .turn inductionHypothesis who asksStill answers

omit known in
theorem Program.Reaches.forgetful {α : Type} {program : Program α} {result : α} {world last : World}
    (reaches : program.Reaches mayAnswer world (.done result) last) :
    program.forgetful.Reaches mayAnswer world (.done ()) last := by
  obtain ⟨turns, interleaves⟩ := reaches
  exact ⟨turns, interleaves.forgetful⟩

/-- What every invocation starts with, and every turn leaves so, holds of a chronicle. -/
theorem Chronicle.heeded {σ : Type} {discipline : Discipline σ} {blank : σ}
    {equipment : Equipment} {origin world : World} {turns : List (Turn Unit)}
    (chronicle : Chronicle mayAnswer equipment origin turns world)
    (heeds : ∀ invocation : Invocation,
      (invocation.program equipment).Heeds discipline blank fun _ _ => True)
    (holds : σ → List (Turn Unit) → World → Prop) (initially : holds blank [] origin)
    (renewed : ∀ state turns world, holds state turns world → holds blank turns world)
    (turned : ∀ state turns world who request answer after, holds state turns world →
      discipline.may state request → world.Answers mayAnswer request answer after →
      ∃ next, discipline.learns state request answer next ∧
        holds next (turns ++ [⟨who, request, answer, after⟩]) after)
    (failed : ∀ state turns world failing, holds state turns world →
      holds state turns (world.withFailing failing)) : holds blank turns world := by
  induction chronicle with
  | start => exact initially
  | @invoked turns later world after rest _ invocation interleaves inductionHypothesis =>
    have eachHeeds : ∀ _ : Unit, (invocation.program equipment).Heeds discipline
        ((fun _ => blank) ()) fun _ _ => True := fun _ => heeds invocation
    obtain ⟨states, held, _⟩ := interleaves.heeded eachHeeds
      (fun states taken world => holds (states ()) (turns ++ taken) world)
      (by rwa [List.append_nil])
      (fun states taken world who request answer after held may answers => by
        obtain ⟨next, learns, heldNext⟩ := turned _ _ _ who _ _ _ held may answers
        refine ⟨next, learns, ?_⟩
        rwa [Function.update_self, ← List.append_assoc])
      fun states taken world failing held => failed _ _ _ _ held
    exact renewed _ _ _ held

end Invocation

end Vetting.Execution
