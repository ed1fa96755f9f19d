import Mathlib.Logic.Function.Basic
import Vetting.Proofs.Program.Discipline
import Vetting.Proofs.Program.Outside

/-!
Contract: programs that take turns in one world.

Owns:
- turns: who asks for what, what is answered, and the world after it;
- `Interleaves`: any number of programs take turns, one request at a time, while writes may
  begin and cease to fail;
- what holds after every turn if each program heeds a discipline, or one of them does;
- `Program.Reaches`: how far a program gets that nobody takes turns with;
- taking turns in a given order, which is one of the ways.

Does not own: what particular programs heed.

A program that takes no further turn is one that has been stopped.  A program that runs
alone takes every turn.
-/

namespace Vetting

/-- Something holds of every way to take an element out of a list that gets a last one, exactly if it
holds of those of the list before and of the last one. -/
theorem forall_split_append {α : Type} {holds : List α → α → List α → Prop} {list : List α}
    {last : α} :
    (∀ before element after, list ++ [last] = before ++ element :: after →
        holds before element after) ↔
      (∀ before element after, list = before ++ element :: after →
        holds before element (after ++ [last])) ∧ holds list last [] := by
  constructor
  · intro all
    refine ⟨?_, all list last [] rfl⟩
    rintro before element after rfl
    exact all before element (after ++ [last]) (by simp)
  · rintro ⟨earlier, now⟩ before element after split
    rcases List.eq_nil_or_concat after with rfl | ⟨rest, final, rfl⟩
    · obtain ⟨rfl, same⟩ := List.append_inj' split rfl
      obtain ⟨rfl, _⟩ := List.cons.inj same
      exact now
    · rw [List.concat_eq_append, ← List.cons_append, ← List.append_assoc] at split
      obtain ⟨rfl, same⟩ := List.append_inj' split rfl
      obtain ⟨rfl, _⟩ := List.cons.inj same
      rw [List.concat_eq_append]
      exact earlier before element rest rfl

theorem forall_split_cons {α : Type} {holds : List α → α → List α → Prop} {first : α}
    {list : List α} :
    (∀ before element after, first :: list = before ++ element :: after →
        holds before element after) ↔
      holds [] first list ∧ ∀ before element after, list = before ++ element :: after →
        holds (first :: before) element after := by
  constructor
  · intro all
    refine ⟨all [] first list rfl, ?_⟩
    rintro before element after rfl
    exact all (first :: before) element after rfl
  · rintro ⟨now, later⟩ before element after split
    cases before with
    | nil =>
      obtain ⟨rfl, rfl⟩ := List.cons.inj split
      exact now
    | cons head rest =>
      obtain ⟨rfl, rest⟩ := List.cons.inj split
      exact later _ element after rest

instance decidableSplit {α : Type} (holds : List α → α → List α → Prop)
    [∀ before element after, Decidable (holds before element after)] :
    (list : List α) → Decidable (∀ before element after, list = before ++ element :: after →
      holds before element after)
  | [] => isTrue fun before _ _ split => by cases before <;> cases split
  | first :: list =>
    have := decidableSplit (fun before => holds (first :: before)) list
    decidable_of_iff _ forall_split_cons.symm

/-- The store with writes that fail, or that work. -/
def Store.withFailing (store : Store) (failingWrites : Bool) : Store := { store with failingWrites }

namespace Execution

/-- A request that has been answered. -/
structure Turn (ι : Type) where
  who : ι
  request : Request
  answer : request.Answer
  after : World

/-- The world with writes that fail, or that work. -/
def World.withFailing (world : World) (failing : Bool) : World :=
  { world with store := world.store.withFailing failing }

/-- Programs take turns: the turns so far, what is left of each program, and the world. -/
inductive Interleaves {ι α : Type} [DecidableEq ι]
    (mayAnswer : (request : Request) → request.Answer → Prop) (programs : ι → Program α)
    (origin : World) : List (Turn ι) → (ι → Program α) → World → Prop
  | start : Interleaves mayAnswer programs origin [] programs origin
  | turn {turns : List (Turn ι)} {rest : ι → Program α} {world after : World} {request : Request}
      {next : request.Answer → Program α} {answer : request.Answer}
      (so : Interleaves mayAnswer programs origin turns rest world) (who : ι)
      (asks : rest who = .ask request next) (answers : world.Answers mayAnswer request answer after) :
    Interleaves mayAnswer programs origin (turns ++ [⟨who, request, answer, after⟩])
      (Function.update rest who (next answer)) after
  | failing {turns : List (Turn ι)} {rest : ι → Program α} {world : World}
      (so : Interleaves mayAnswer programs origin turns rest world) (failing : Bool) :
    Interleaves mayAnswer programs origin turns rest (world.withFailing failing)

section Turns

variable {ι α : Type} [DecidableEq ι] {mayAnswer : (request : Request) → request.Answer → Prop}
  {programs rest last : ι → Program α} {origin world after : World}
  {turns later : List (Turn ι)}

theorem Interleaves.trans (first : Interleaves mayAnswer programs origin turns rest world)
    (second : Interleaves mayAnswer rest world later last after) :
    Interleaves mayAnswer programs origin (turns ++ later) last after := by
  induction second with
  | start =>
    rw [List.append_nil]
    exact first
  | turn _ who asks answers inductionHypothesis =>
    rw [← List.append_assoc]
    exact .turn inductionHypothesis who asks answers
  | failing _ failing inductionHypothesis => exact .failing inductionHypothesis failing

/-- What programs that heed a discipline make of a world holds after every turn, if it holds after
each single one. -/
theorem Interleaves.heeded {σ : Type} {discipline : Discipline σ} {aim : ι → α → σ → Prop}
    {states : ι → σ} (interleaves : Interleaves mayAnswer programs origin turns rest world)
    (heeds : ∀ who, (programs who).Heeds discipline (states who) (aim who))
    (holds : (ι → σ) → List (Turn ι) → World → Prop) (initially : holds states [] origin)
    (turned : ∀ states turns world who request answer after, holds states turns world →
      discipline.may (states who) request → world.Answers mayAnswer request answer after →
      ∃ state, discipline.learns (states who) request answer state ∧
        holds (Function.update states who state) (turns ++ [⟨who, request, answer, after⟩]) after)
    (failed : ∀ states turns world failing, holds states turns world →
      holds states turns (world.withFailing failing)) :
    ∃ states, holds states turns world ∧
      ∀ who, (rest who).Heeds discipline (states who) (aim who) := by
  induction interleaves with
  | start => exact ⟨states, initially, heeds⟩
  | @turn turns rest world after request next answer _ who asks answers inductionHypothesis =>
    obtain ⟨states, held, heeds⟩ := inductionHypothesis
    have asked := heeds who
    rw [asks] at asked
    obtain ⟨state, learns, heldAfter⟩ := turned _ _ _ _ _ _ _ held asked.1 answers
    refine ⟨_, heldAfter, fun other => ?_⟩
    by_cases same : other = who
    · subst same
      rw [Function.update_self, Function.update_self]
      exact asked.2 answer state learns
    · rw [Function.update_of_ne same, Function.update_of_ne same]
      exact heeds other
  | failing _ failing inductionHypothesis =>
    obtain ⟨states, held, heeds⟩ := inductionHypothesis
    exact ⟨states, failed _ _ _ _ held, heeds⟩

/-- What one program that heeds a discipline, and anybody else, make of a world holds after every
turn, if it holds after each single one. -/
theorem Interleaves.heededBy {σ : Type} {discipline : Discipline σ} {state : σ}
    {aim : α → σ → Prop} {who : ι}
    (interleaves : Interleaves mayAnswer programs origin turns rest world)
    (heeds : (programs who).Heeds discipline state aim)
    (holds : σ → List (Turn ι) → World → Prop) (initially : holds state [] origin)
    (turned : ∀ state turns world request answer after, holds state turns world →
      discipline.may state request → world.Answers mayAnswer request answer after →
      ∃ next, discipline.learns state request answer next ∧
        holds next (turns ++ [⟨who, request, answer, after⟩]) after)
    (passed : ∀ state turns world other request answer after, other ≠ who →
      holds state turns world → world.Answers mayAnswer request answer after →
      holds state (turns ++ [⟨other, request, answer, after⟩]) after)
    (failed : ∀ state turns world failing, holds state turns world →
      holds state turns (world.withFailing failing)) :
    ∃ state, holds state turns world ∧ (rest who).Heeds discipline state aim := by
  induction interleaves with
  | start => exact ⟨state, initially, heeds⟩
  | @turn turns rest world after request next answer _ one asks answers inductionHypothesis =>
    obtain ⟨state, held, heeds⟩ := inductionHypothesis
    by_cases same : one = who
    · subst same
      rw [asks] at heeds
      obtain ⟨state, learns, heldAfter⟩ := turned _ _ _ _ _ _ held heeds.1 answers
      refine ⟨state, heldAfter, ?_⟩
      rw [Function.update_self]
      exact heeds.2 answer state learns
    · refine ⟨state, passed _ _ _ _ _ _ _ same held answers, ?_⟩
      rwa [Function.update_of_ne fun equal => same equal.symm]
  | failing _ failing inductionHypothesis =>
    obtain ⟨state, held, heeds⟩ := inductionHypothesis
    exact ⟨state, failed _ _ _ _ held, heeds⟩

/-- A program gets so far while nobody else takes turns.  Writes may begin and cease to fail, and the
program may be stopped there. -/
def Program.Reaches (mayAnswer : (request : Request) → request.Answer → Prop) (program : Program α)
    (origin : World) (rest : Program α) (last : World) : Prop :=
  ∃ turns, Interleaves mayAnswer (fun _ : Unit => program) origin turns (fun _ => rest) last

theorem Program.Reaches.trans {program middle rest : Program α} {between : World}
    (first : program.Reaches mayAnswer origin middle between)
    (second : middle.Reaches mayAnswer between rest world) :
    program.Reaches mayAnswer origin rest world := by
  obtain ⟨earlier, first⟩ := first
  obtain ⟨later, second⟩ := second
  exact ⟨earlier ++ later, first.trans second⟩

theorem Program.Reaches.withFailing {program rest : Program α}
    (reaches : program.Reaches mayAnswer origin rest world) (failing : Bool) :
    program.Reaches mayAnswer origin rest (world.withFailing failing) := by
  obtain ⟨turns, interleaves⟩ := reaches
  exact ⟨turns, interleaves.failing failing⟩

/-- A program that runs to its end gets there. -/
theorem Program.Runs.arrives {program : Program α} {requests : List Request} {result : α}
    (runs : program.Runs mayAnswer origin requests (some result) world) :
    program.Reaches mayAnswer origin (.done result) world := by
  generalize isResult : some result = result? at runs
  induction runs with
  | done =>
    cases isResult
    exact ⟨[], .start⟩
  | stopped => cases isResult
  | @asked request next _ _ _ answer _ _ answers _ inductionHypothesis =>
    have first : Interleaves mayAnswer (fun _ : Unit => Program.ask request next) _ _ _ _ :=
      .turn .start () rfl answers
    have left : Function.update (fun _ : Unit => Program.ask request next) () (next answer) =
        fun _ => next answer := funext fun _ => Function.update_self _ _ _
    rw [left] at first
    exact Program.Reaches.trans ⟨_, first⟩ (inductionHypothesis isResult)

/-- What a program that heeds a discipline makes of a world, as far as it gets. -/
theorem Program.Reaches.heeded {σ : Type} {discipline : Discipline σ} {aim : α → σ → Prop}
    {state : σ} {program rest : Program α} (reaches : program.Reaches mayAnswer origin rest world)
    (heeds : program.Heeds discipline state aim) (holds : σ → World → Prop)
    (initially : holds state origin)
    (turned : ∀ state world request answer after, holds state world →
      discipline.may state request → world.Answers mayAnswer request answer after →
      ∃ next, discipline.learns state request answer next ∧ holds next after)
    (failed : ∀ state world failing, holds state world →
      holds state (world.withFailing failing)) :
    ∃ state, holds state world ∧ rest.Heeds discipline state aim := by
  obtain ⟨turns, interleaves⟩ := reaches
  have eachHeeds : ∀ _ : Unit, program.Heeds discipline ((fun _ => state) ()) aim := fun _ => heeds
  obtain ⟨states, held, heeds⟩ := interleaves.heeded eachHeeds
    (fun states _ world => holds (states ()) world) initially
    (fun states _ world who request answer after held may answers => by
      obtain ⟨next, learns, heldNext⟩ := turned _ _ _ _ _ held may answers
      refine ⟨next, learns, ?_⟩
      rwa [Function.update_self])
    fun states _ world failing held => failed _ _ _ held
  exact ⟨states (), held, heeds ()⟩

/-- Lets programs take turns in a given order, for as long as they ask for something. -/
def World.takeTurns (surroundings : Surroundings) :
    List ι → (ι → Program α) → World → List (Turn ι) × (ι → Program α) × World
  | [], programs, world => ([], programs, world)
  | who :: order, programs, world =>
    match programs who with
    | .done _ => takeTurns surroundings order programs world
    | .ask request next =>
      let (answer, after) := (answer surroundings request).run world
      let (turns, rest, last) :=
        takeTurns surroundings order (Function.update programs who (next answer)) after
      (⟨who, request, answer, after⟩ :: turns, rest, last)

theorem World.interleaves_takeTurns (surroundings : Surroundings) (order : List ι)
    (programs : ι → Program α) (world : World) :
    Interleaves surroundings.answers programs world (takeTurns surroundings order programs world).1
      (takeTurns surroundings order programs world).2.1
      (takeTurns surroundings order programs world).2.2 := by
  induction order generalizing programs world with
  | nil => exact .start
  | cons who order inductionHypothesis =>
    cases asks : programs who with
    | done result =>
      rw [takeTurns, asks]
      exact inductionHypothesis programs world
    | ask request next =>
      rw [takeTurns, asks]
      have first := Interleaves.turn .start who asks (world.answers_answer surroundings request)
      exact first.trans (inductionHypothesis _ _)

/-- Lets a program take some turns alone. -/
def World.takeAlone (surroundings : Surroundings) (count : Nat) (program : Program α)
    (world : World) : Program α × World :=
  let (_, rest, last) := takeTurns surroundings (List.replicate count ()) (fun _ => program) world
  (rest (), last)

theorem World.reaches_takeAlone (surroundings : Surroundings) (count : Nat) (program : Program α)
    (world : World) :
    program.Reaches surroundings.answers world (takeAlone surroundings count program world).1
      (takeAlone surroundings count program world).2 :=
  ⟨_, interleaves_takeTurns surroundings (List.replicate count ()) (fun _ => program) world⟩

theorem World.takeAlone_ask (surroundings : Surroundings) (count : Nat) (request : Request)
    (next : request.Answer → Program α) (world : World) :
    takeAlone surroundings (count + 1) (.ask request next) world =
      takeAlone surroundings count (next ((answer surroundings request).run world).1)
        ((answer surroundings request).run world).2 := by
  have updated : ∀ rest, Function.update (fun _ : Unit => Program.ask request next) () rest =
      fun _ => rest := by
    intro rest
    funext who
    cases who
    rw [Function.update_self]
  exact congrArg (fun programs : Unit → Program α =>
    let left := takeTurns surroundings (List.replicate count ()) programs
      ((answer surroundings request).run world).2
    (left.2.1 (), left.2.2)) (updated _)

/-- What is left of a program after some turns goes on as the program does. -/
theorem World.runs_takeAlone (surroundings : Surroundings) (count : Nat) {program : Program α}
    {world last : World} {requests : List Request} {result? : Option α}
    (runs : (takeAlone surroundings count program world).1.Runs surroundings.answers
      (takeAlone surroundings count program world).2 requests result? last) :
    ∃ earlier, program.Runs surroundings.answers world (earlier ++ requests) result? last := by
  induction count generalizing program world with
  | zero => exact ⟨[], runs⟩
  | succ count inductionHypothesis =>
    cases program with
    | done result => exact inductionHypothesis runs
    | ask request next =>
      rw [takeAlone_ask] at runs
      obtain ⟨earlier, rest⟩ := inductionHypothesis runs
      exact ⟨request :: earlier, .asked (world.answers_answer surroundings request) rest⟩

end Turns

end Execution

end Vetting
