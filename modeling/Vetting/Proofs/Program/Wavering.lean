import Vetting.Proofs.Program.Interleaving

/-!
Contract: programs whose store takes writes at one time and refuses them at another.

Owns:
- `wavering`, the discipline of a program that has a store for itself, given whether it may
  meet failing writes and whether it may meet working ones;
- rules for what such a program asks its store for;
- that the discipline describes every way in which a program gets along alone.

Does not own: which programs leave what behind (`Vetting.Proofs.Run.Remnant`).

The state is the store without its mark for failing writes: it may be asked both ways.
-/

namespace Vetting

namespace Store

theorem withFailing_of_eq {store : Store} {failing : Bool} (same : store.failingWrites = failing) :
    store.withFailing failing = store := by
  subst same
  rfl

private theorem failingWrites_change {store : Store} (id : Uuid) (change : Run → Option Run)
    {result : Except EngineFault Bool × Store}
    (opened : result = match store.runs.get? id with
      | none => (.error (.runNotFound id), store)
      | some run => match change run with
        | none => (.ok false, store)
        | some changed => (.ok true, { store with runs := store.runs.set id changed })) :
    result.2.failingWrites = store.failingWrites := by
  rw [opened]
  split
  · rfl
  · split <;> rfl

/-- No answer changes whether writes fail. -/
theorem failingWrites_answer (store : Store) (request : StoreRequest) :
    (store.answer request).2.failingWrites = store.failingWrites := by
  cases request with
  | run | stepRun | cancelFlag | stepRuns | findings | runFindings | releaseCallback => rfl
  | submission id => cases held : store.submissions.get? id <;> simp only [answer, held]
  | startRun id now => exact failingWrites_change id _ rfl
  | closeRun id status error now =>
    simp only [answer, closeRun]
    split
    · rfl
    · exact failingWrites_change id _ rfl
  | saveSummary id summary =>
    exact failingWrites_change id (fun run => some { run with summary? := some summary }) rfl
  | flagCancel id =>
    exact failingWrites_change id (fun run => some { run with cancelRequested := true }) rfl
  | acquire runId step now =>
    simp only [answer, acquire]
    split <;> rfl
  | restart id attempt now =>
    simp only [answer, restart]
    split
    · rfl
    · split <;> rfl
  | updateStepRun stepRun =>
    simp only [answer, updateStepRun]
    split
    · rfl
    · split <;> rfl
  | replaceFindings id findings =>
    simp only [answer, replaceFindings]
    split <;> rfl
  | appendFindings id findings =>
    simp only [answer, appendFindings, replaceFindings]
    split <;> rfl
  | recordCallback key id now =>
    simp only [answer, recordCallback]
    split <;> rfl

end Store

namespace Execution

/-- Having a store for oneself.  Failing writes may be met if `met true`, and working ones if
`met false`.  Something may be asked if the watch over the store has nothing against it. -/
def wavering (mayAnswer : (request : Request) → request.Answer → Prop) (met : Bool → Prop)
    (watch : Store → Request → Prop) : Discipline Store where
  may := watch
  learns store request answer after := match request, answer with
    | .store request, answer => ∃ failing, met failing ∧
      answer = ((store.withFailing failing).answer request).1 ∧
        after = ((store.withFailing failing).answer request).2.withFailing false
    | .log _ _, _ | .stamp, _ => after = store
    | .validate validator submission, answer =>
      mayAnswer (.validate validator submission) answer ∧ after = store
    | .act type context, answer => mayAnswer (.act type context) answer ∧ after = store
    | .backendAvailable, answer => mayAnswer .backendAvailable answer ∧ after = store
    | .launch job, answer => mayAnswer (.launch job) answer ∧ after = store

section Soundness

variable {α : Type} {mayAnswer : (request : Request) → request.Answer → Prop} {met : Bool → Prop}
  {watch : Store → Request → Prop} {program rest : Program α} {origin last : World}

/-- What a program that takes turns alone has still to do. -/
theorem Interleaves.wavers {rest : Unit → Program α} {turns : List (Turn Unit)}
    {aim : α → Store → Prop}
    (interleaves : Interleaves mayAnswer (fun _ => program) origin turns rest last)
    (meets : ∀ turn ∈ turns, met turn.after.store.failingWrites)
    (heeds : program.Heeds (wavering mayAnswer met watch) (origin.store.withFailing false) aim) :
    (rest ()).Heeds (wavering mayAnswer met watch) (last.store.withFailing false) aim := by
  induction interleaves with
  | start => exact heeds
  | failing _ _ inductionHypothesis => exact inductionHypothesis meets
  | @turn turns rest world after request next answer _ who asks answers inductionHypothesis =>
    have heeds := inductionHypothesis fun turn member =>
      meets turn (List.mem_append_left _ member)
    have now := meets _ (List.mem_append_right turns (List.mem_singleton_self _))
    rw [asks] at heeds
    rw [Function.update_self]
    refine heeds.2 answer _ ?_
    cases request with
    | store request =>
      obtain ⟨rfl, rfl⟩ := answers
      refine ⟨world.store.failingWrites, ?_, rfl, rfl⟩
      rwa [Store.failingWrites_answer] at now
    | log | stamp =>
      obtain ⟨_, rfl⟩ := answers
      rfl
    | validate | act | backendAvailable | launch =>
      obtain ⟨may, rfl⟩ := answers
      exact ⟨may, rfl⟩

/-- What holds whenever a program asks for something, and when it is done, holds as far as it gets. -/
theorem Program.Reaches.remains {ε : Type} {job : ExceptT ε Program α} {kept : Store → Prop}
    {rest : Program (Except ε α)} {good : α → Store → Prop}
    (reaches : job.run.Reaches mayAnswer origin rest last)
    (heeds : Execution.Heeds (wavering mayAnswer (fun _ => True) fun store _ => kept store) job
      (origin.store.withFailing false) (fun result after => kept after ∧ good result after)
      fun _ _ => False) :
    kept (last.store.withFailing false) ∧ ∀ result, rest = .done result →
      ∃ value, result = .ok value ∧ good value (last.store.withFailing false) := by
  obtain ⟨turns, interleaves⟩ := reaches
  have heeds := interleaves.wavers (fun _ _ => trivial) heeds
  cases rest with
  | ask request next => exact ⟨heeds.1, fun _ no => nomatch no⟩
  | done result =>
    cases result with
    | error fault => exact heeds.elim
    | ok value =>
      refine ⟨heeds.1, ?_⟩
      rintro _ ⟨⟩
      exact ⟨value, rfl, heeds.2⟩

end Soundness

section Requests

variable {mayAnswer : (request : Request) → request.Answer → Prop} {met : Bool → Prop}
  {watch : Store → Request → Prop} {store after : Store} {bad : EngineFault → Store → Prop}

/-- A request that is answered well whether or not writes fail. -/
theorem wavers_ask {request : StoreRequest} {result : request.Result}
    {good : request.Result → Store → Prop} (watched : watch store (.store request))
    (answered : ∀ failing,
      (store.withFailing failing).answer request = (.ok result, after.withFailing failing))
    (steady : after.failingWrites = false)
    (reached : good result after) :
    Heeds (wavering mayAnswer met watch) (Job.store request) store good bad := by
  refine (heeds_store _).mpr ⟨watched, ?_⟩
  rintro answer last ⟨failing, _, rfl, rfl⟩
  have same : (after.withFailing failing).withFailing false = after :=
    Store.withFailing_of_eq steady
  rw [answered failing, same]
  exact reached

/-- A request that is refused while writes fail. -/
theorem wavers_write {request : StoreRequest} {result : request.Result}
    {good : request.Result → Store → Prop} (watched : watch store (.store request))
    (steady : store.failingWrites = false)
    (refused : (store.withFailing true).answer request =
      (.error Store.unavailable, store.withFailing true))
    (answered : store.answer request = (.ok result, after))
    (reached : met false → good result after) (fails : bad Store.unavailable store) :
    Heeds (wavering mayAnswer met watch) (Job.store request) store good bad := by
  refine (heeds_store _).mpr ⟨watched, ?_⟩
  rintro answer last ⟨failing, meets, rfl, rfl⟩
  have same := Store.withFailing_of_eq steady
  cases failing with
  | true =>
    rw [refused]
    change bad Store.unavailable (store.withFailing false)
    rwa [same]
  | false =>
    have steadyAfter := store.failingWrites_answer request
    rw [answered, steady] at steadyAfter
    rw [same, answered, Store.withFailing_of_eq steadyAfter]
    exact reached meets

theorem wavers_log {runId : Uuid} {kind : EventKind} {good : Unit → Store → Prop}
    (watched : watch store (.log runId kind)) (reached : good () store) :
    Heeds (wavering mayAnswer met watch) (Job.log runId kind) store good bad := by
  refine (heeds_log _ _).mpr ⟨watched, ?_⟩
  rintro _ _ rfl
  exact reached

theorem wavers_stamp {good : Stamp → Store → Prop} (watched : watch store .stamp)
    (reached : ∀ stamp, good stamp store) :
    Heeds (wavering mayAnswer met watch) Job.stamp store good bad := by
  refine heeds_stamp.mpr ⟨watched, ?_⟩
  rintro stamp _ rfl
  exact reached stamp

theorem wavers_now {good : Timestamp → Store → Prop} (watched : watch store .stamp)
    (reached : ∀ now, good now store) :
    Heeds (wavering mayAnswer met watch) Job.now store good bad :=
  (heeds_bind _ _).mpr (wavers_stamp watched fun stamp => reached stamp.time)

end Requests

end Execution

end Vetting
