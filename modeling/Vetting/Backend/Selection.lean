import Vetting.Backend.ContainerCommand
import Vetting.Backend.JobService
import Vetting.Configuration.Settings

/-!
Contract: the backend that settings ask for.

Owns:
- which backend that is, its name, and whether it is available;
- carrying out a job with it.

Does not own: the backends.

A remote backend without an address of its service, or without an address for
results, is one that is not available; this shows when a job is to be carried out.
-/

namespace Vetting

open Files (FileTree)
open Artifact (ArtifactStore)

/-- A backend that settings ask for. -/
inductive SelectedBackend where
  | container (backend : ContainerBackend) (program : String)
  | remote (directory : Artifact.Directory) (service : JobService) (callbackUrl : String)
  | unavailable (reason : String)
deriving Inhabited

namespace SelectedBackend

def ofSettings (settings : BackendSettings) : SelectedBackend :=
  let directory : Artifact.Directory := ⟨settings.artifactDirectory⟩
  match settings.kind, settings.remoteEndpoint?, settings.callbackUrl? with
  | .container, _, _ =>
    .container ⟨directory, settings.containerTimeoutSeconds * 1000⟩ settings.containerRuntime
  | .remote, some endpoint, some callbackUrl =>
    .remote directory ⟨endpoint, settings.remoteToken?⟩ callbackUrl
  | .remote, _, _ => .unavailable "remote backend requires an endpoint and a callback url"

def name : SelectedBackend → String
  | .container _ _ => ContainerBackend.name
  | .remote _ _ _ => RemoteBackend.name
  | .unavailable _ => "unavailable"

/-- What a backend makes use of, of all that surrounds it. -/
structure Machine where
  tree : FileTree
  /-- The command of a name. -/
  command : String → SystemCommand
  /-- Tells a service about a job. -/
  submit : JobService → JobNotice → Except BackendFault String

/-- The remote backend on a machine. -/
def remoteOn (machine : Machine) (directory : Artifact.Directory) (service : JobService)
    (callbackUrl : String) : RemoteBackend (StateM FileTree) where
  artifacts := .inDirectory directory
  submit notice := pure (machine.submit service notice)
  callbackUrl

def isAvailable (machine : Machine) : SelectedBackend → Bool
  | .container _ program => ((machine.command program).isAvailable machine.tree).1
  | .remote directory service callbackUrl =>
    (remoteOn machine directory service callbackUrl).isAvailable
  | .unavailable _ => false

/-- Carries out a job, under an identifier that nothing else has. -/
def execute (machine : Machine) (id : Uuid) (durationSeconds : Float) (request : JobRequest) :
    SelectedBackend → Except BackendFault JobResponse
  | .container backend program =>
    let runtime := (machine.command program).runtime machine.tree
    (backend.execute runtime id durationSeconds request machine.tree).1
  | .remote directory service callbackUrl =>
    ((remoteOn machine directory service callbackUrl).execute request machine.tree).1
  | .unavailable reason => .error (.unavailable reason)

end SelectedBackend

end Vetting
