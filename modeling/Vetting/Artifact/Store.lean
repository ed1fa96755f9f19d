import Vetting.Backend.Job

/-!
Contract: where the inputs and outputs of jobs are kept.

Owns:
- the keys of artifacts and their addresses;
- what a store of artifacts does;
- a store in memory.

Does not own: a store in a directory (`Vetting.Artifact.Directory`).
-/

namespace Vetting.Artifact

/-- The key of an artifact of an attempt at a step. -/
def key (runId stepRunId : Uuid) (attempt : Nat) (name : String) : String :=
  "runs/" ++ runId.text ++ "/" ++ stepRunId.text ++ "/" ++ toString attempt ++ "/" ++ name

/-- The key of an artifact of a job. -/
def keyOf (request : JobRequest) (name : String) : String :=
  key request.runId request.stepRunId request.attempt name

/-- A store of artifacts whose state is kept by a monad. -/
structure ArtifactStore (m : Type → Type) where
  /-- Keeps bytes under a key and answers their address. -/
  write : String → ByteArray → m (Except BackendFault String)
  /-- The bytes at an address. -/
  read : String → m (Except BackendFault ByteArray)
  /-- The address that belongs to a key. -/
  address : String → String

/-- Artifacts in memory, by address. -/
abbrev Shelf : Type := Dictionary ByteArray

/-- The store that keeps artifacts on a shelf. -/
def ArtifactStore.inMemory : ArtifactStore (StateM Shelf) where
  address key := "mem://" ++ key
  write key bytes := do
    let address := "mem://" ++ key
    modify (Dictionary.insert address bytes)
    return .ok address
  read address := do
    match Dictionary.lookup? address (← get) with
    | some bytes => return .ok bytes
    | none => return .error (.artifact ("not found: " ++ address))

end Vetting.Artifact
