import Vetting.Proofs.Run.Order
import Vetting.Proofs.Store.Elsewhere
import Vetting.Execution.Memory

/-!
Contract: a small run, on which general results can be seen at work.

Owns:
- a workflow with a job and an action after it, and a run of it that has not begun;
- the equipment for it, and a backend that accepts every job.

Does not own: any result about runs.
-/

namespace Vetting.Example

open Execution

def check : Step where
  order := 10
  key := "check"
  name := ""
  kind := .validator ⟨"remote", .null, []⟩ .empty

def notify : Step where
  order := 20
  key := "notify"
  name := ""
  kind := .action "notify" .null

def steps : List Step := [check, notify]

def submission : Submission := ⟨⟨1⟩, "json", .empty, ⟨0, 0⟩⟩

def run : Run := .fresh ⟨2⟩ ⟨3⟩ submission.id steps ⟨0, 0⟩

/-- The store in which nothing has begun. -/
def store : Store := (Store.empty.addSubmission submission).putRun run

def world : World := { World.empty with store := store }

def equipment : Equipment where
  checker := .standard
  validators := [("remote", fun _ => .ok (.external .plain))]
  actions := ["notify"]
  backendName := "remote"

def accepted : JobResponse where
  executionId := "job-1"
  inputUri := ""
  outputUri := ""
  durationSeconds := none
  errorMessage := none
  envelope? := none
  isComplete := false

def envelope : Envelope := .plain .success .null

/-- The response of a job that has reported success at once. -/
def reporting : JobResponse := { accepted with envelope? := some envelope, isComplete := true }

/-- Surroundings whose backend answers every job in one way. -/
def surroundings (response : JobResponse) : Surroundings where
  validate _ _ := .ok ⟨true, [], []⟩
  act _ _ := .ok ⟨true, none, []⟩
  backendAvailable := true
  launch _ := .ok response

theorem inOrder_steps : Run.inOrder steps = steps := List.mergeSort_of_pairwise (by decide)

/-- The world in which nothing has begun, with the steps as they are written. -/
def prepared : World := { world with store := store.withRun { run with steps := steps } }

theorem prepared_eq : prepared = world := by
  have same : run.steps = steps := inOrder_steps
  rw [prepared, ← same]
  rfl

theorem distinct_steps : DistinctSteps steps where
  keys := by decide
  orders := by decide
  bounded := by decide

theorem coherent_store : store.Coherent := by
  have submitted : (Store.empty.addSubmission submission).Coherent :=
    Store.coherent_empty.congr rfl rfl rfl rfl
  exact submitted.withRun run

end Vetting.Example
