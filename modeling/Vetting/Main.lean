import Vetting.Command.Session

/-!
Contract: the program.

Owns: taking words and settings from the operating system, and giving back texts and a
code.

Does not own: any decision; `Vetting.Command.Session` decides.

The program has no client for a database server, and says so where one is needed.
-/

namespace Vetting

/-- The settings that the program looks for. -/
def settingKeys : List String := [
  DatabaseSettings.urlKey, DatabaseSettings.minKey, DatabaseSettings.maxKey,
  "VALFLOW_BACKEND", "VALFLOW_CONTAINER_RUNTIME", "VALFLOW_CONTAINER_TIMEOUT_SECS",
  "VALFLOW_ARTIFACT_DIR", "VALFLOW_REMOTE_ENDPOINT", "VALFLOW_CALLBACK_URL",
  "VALFLOW_REMOTE_TOKEN", "VALFLOW_EVAL_TIMEOUT_MS", "VALFLOW_EVAL_MAX_EXPRESSION_LEN",
  "VALFLOW_EVAL_MAX_CONTEXT_BYTES", "VALFLOW_EVAL_UNAMBIGUOUS_KEYS"]

def readEnvironment : IO Environment := do
  let mut environment : Environment := []
  for key in settingKeys do
    if let some value ← IO.getEnv key then
      environment := Dictionary.insert key value environment
  return environment

/-- The text of the nearest file of more settings, in the current directory or above it. -/
def readEnvironmentFile : IO (Option String) := do
  for directory in Files.ancestors (← IO.currentDir).toString do
    try
      return some (← IO.FS.readFile (Files.joined directory ".env"))
    catch _ => continue
  return none

/-- Why a command that could be carried out is not. -/
def unreachable : Command.Refusal :=
  .failure (.plain (.assembly (.database (.transient "pool build: no client"))))

end Vetting

open Vetting in
def main (words : List String) : IO UInt32 := do
  let refusal :=
    match Command.Commission.read words (← readEnvironment) (← readEnvironmentFile) with
    | .error refusal => refusal
    | .ok _ => unreachable
  if let some answer := refusal.answer? then IO.print answer
  if let some message := refusal.message? then IO.eprintln ("error: " ++ message)
  return UInt32.ofNat refusal.exitCode
