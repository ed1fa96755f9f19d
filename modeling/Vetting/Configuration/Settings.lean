import Vetting.Configuration.Environment
import Vetting.Json.Documented
import Vetting.Rule.Report
import Vetting.Width

/-!
Contract: the settings of the application.

Owns:
- settings of the database, of the backend and of the evaluation of assertions;
- reading them from an environment, in a fixed order, up to the first fault;
- their JSON form.

Does not own: what is built from the settings.
-/

namespace Vetting

open Json (Value)

/-- Where jobs are carried out. -/
inductive BackendKind where
  | container
  | remote
deriving DecidableEq, Inhabited, Repr

namespace BackendKind

def name : BackendKind → String
  | .container => "Local"
  | .remote => "Remote"

/-- The kind that a word names.  White space around it and the case of its letters are ignored. -/
def read (text : String) : Except String BackendKind :=
  match (Text.trimmed text).toLower with
  | "local" => .ok .container
  | "remote" => .ok .remote
  | word =>
    .error ("unknown backend kind '" ++ word ++ "' (expected 'local' or 'remote')")

end BackendKind

/-- Settings of a database. -/
structure DatabaseSettings where
  url : String
  minConnections : Nat
  maxConnections : Nat
deriving DecidableEq, Inhabited

namespace DatabaseSettings

def urlKey : String := "DATABASE_URL"
def minKey : String := "DATABASE_MIN_CONNECTIONS"
def maxKey : String := "DATABASE_MAX_CONNECTIONS"

def toValue (settings : DatabaseSettings) : Value := .object [
  ("max", .natural settings.maxConnections),
  ("min", .natural settings.minConnections),
  ("url", .text settings.url)]

/-- Read only if there is an address that is more than white space. -/
def read? (environment : Environment) : Except ConfigurationFault (Option DatabaseSettings) :=
  match environment.solidText? urlKey with
  | none => .ok none
  | some url => do
    let minConnections ← environment.numberOr minKey 2 (Width.greatestNat 32)
    let maxConnections ← environment.numberOr maxKey 16 (Width.greatestNat 32)
    return some ⟨url, minConnections, maxConnections⟩

end DatabaseSettings

/-- Settings of a backend. -/
structure BackendSettings where
  kind : BackendKind
  /-- The program that runs containers. -/
  containerRuntime : String
  containerTimeoutSeconds : Nat
  artifactDirectory : String
  remoteEndpoint? : Option String
  callbackUrl? : Option String
  remoteToken? : Option String
deriving DecidableEq, Inhabited

namespace BackendSettings

def standard : BackendSettings := {
  kind := .container, containerRuntime := "docker", containerTimeoutSeconds := 300
  artifactDirectory := "/tmp/valflow-artifacts", remoteEndpoint? := none, callbackUrl? := none
  remoteToken? := none }

def toValue (settings : BackendSettings) : Value := .object [
  ("artifact_dir", .text settings.artifactDirectory),
  ("callback_url", .optionalText settings.callbackUrl?),
  ("container_runtime", .text settings.containerRuntime),
  ("container_timeout_secs", .natural settings.containerTimeoutSeconds),
  ("kind", .text settings.kind.name),
  ("remote_endpoint", .optionalText settings.remoteEndpoint?),
  ("remote_token", .optionalText settings.remoteToken?)]

/-- A remote backend needs an endpoint. -/
def read (environment : Environment) : Except ConfigurationFault BackendSettings := do
  let kind ← environment.readOr "VALFLOW_BACKEND" standard.kind BackendKind.read
  let containerTimeoutSeconds ← environment.numberOr "VALFLOW_CONTAINER_TIMEOUT_SECS"
    standard.containerTimeoutSeconds (Width.greatestNat 64)
  let remoteEndpoint? := environment.solidText? "VALFLOW_REMOTE_ENDPOINT"
  if kind = .remote ∧ remoteEndpoint?.isNone then
    throw (.missing "VALFLOW_REMOTE_ENDPOINT")
  return {
    kind, containerTimeoutSeconds, remoteEndpoint?
    containerRuntime :=
      (environment.text? "VALFLOW_CONTAINER_RUNTIME").getD standard.containerRuntime
    artifactDirectory := (environment.text? "VALFLOW_ARTIFACT_DIR").getD standard.artifactDirectory
    callbackUrl? := environment.solidText? "VALFLOW_CALLBACK_URL"
    remoteToken? := environment.solidText? "VALFLOW_REMOTE_TOKEN" }

end BackendSettings

/-- Limits on the evaluation of assertions, read from an environment. -/
def Rule.Limits.read (environment : Environment) : Except ConfigurationFault Rule.Limits := do
  let greatest := Width.greatestNat 64
  let timeoutMs ← environment.numberOr "VALFLOW_EVAL_TIMEOUT_MS" standard.timeoutMs greatest
  let maxExpressionLength ← environment.numberOr "VALFLOW_EVAL_MAX_EXPRESSION_LEN"
    standard.maxExpressionLength greatest
  let maxContextBytes ← environment.numberOr "VALFLOW_EVAL_MAX_CONTEXT_BYTES"
    standard.maxContextBytes greatest
  return { timeoutMs, maxExpressionLength, maxContextBytes }

/-- The settings of the application. -/
structure Settings where
  /-- None if no address of a database is given. -/
  database? : Option DatabaseSettings
  backend : BackendSettings
  limits : Rule.Limits
  unambiguousKeys : Bool
deriving DecidableEq, Inhabited

namespace Settings

def read (environment : Environment) : Except ConfigurationFault Settings := do
  let database? ← DatabaseSettings.read? environment
  let backend ← BackendSettings.read environment
  let limits ← Rule.Limits.read environment
  let unambiguousKeys ← environment.truthOr "VALFLOW_EVAL_UNAMBIGUOUS_KEYS" true
  return { database?, backend, limits, unambiguousKeys }

def toValue (settings : Settings) : Value := .object [
  ("backend", settings.backend.toValue),
  ("database", .ofOption DatabaseSettings.toValue settings.database?),
  ("limits", .object [
    ("max_context_bytes", .natural settings.limits.maxContextBytes),
    ("max_expression_len", .natural settings.limits.maxExpressionLength),
    ("timeout_ms", .natural settings.limits.timeoutMs)]),
  ("unambiguous_keys", .boolean settings.unambiguousKeys)]

end Settings

end Vetting
