import Vetting.Digest.Blake3
import Vetting.Uuid

/-!
Contract: digests of documents.

Owns:
- the canonical text of a value, which equal values share;
- the digest of a value;
- the token that an attempt at a step gives to its job.

Does not own: the digest of a text (`Vetting.Digest.ofText`).
-/

namespace Vetting.Digest

open Json (Value)

/-- The text of a value without white space and with the entries of objects in key order. -/
def canonical (value : Value) : String := value.settled.compact

/-- The digest of a value. -/
def ofValue (value : Value) : String := ofText (canonical value)

/-- What stands for an attempt at a step when its token is made. -/
def attemptValue (stepRunId : Uuid) (attempt : Nat) : Value := .object [
  ("attempt", .natural attempt),
  ("step_run_id", stepRunId.toValue)]

/-- The token of an attempt at a step. -/
def attemptKey (stepRunId : Uuid) (attempt : Nat) : String :=
  ofValue (attemptValue stepRunId attempt)

end Vetting.Digest
