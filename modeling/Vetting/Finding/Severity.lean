import Vetting.Json.Documented

/-!
Contract: how grave an observation is.

Owns:
- severities, their names and their JSON form;
- counts of observations by severity.

Does not own: the observations (`Vetting.Finding.Issue`).

In documents a severity may be written in upper or in lower case; free text is
read in any mixture of the two.
-/

namespace Vetting

open Json (Value Shape)

inductive Severity where
  | error
  | warning
  | info
  | success
deriving DecidableEq, Inhabited, Repr

namespace Severity

def all : List Severity := [.error, .warning, .info, .success]

def name : Severity → String
  | .error => "ERROR"
  | .warning => "WARNING"
  | .info => "INFO"
  | .success => "SUCCESS"

/-- The severity of a name in upper case. -/
def named? (name : String) : Option Severity := all.find? fun severity => severity.name == name

/-- The severity that a free text names. -/
def read? (text : String) : Option Severity := named? text.toUpper

def shape : Shape :=
  Shape.choice (all.map fun severity => [severity.name, severity.name.toLower])

def toValue (severity : Severity) : Value := .text severity.name

def ofValue? : Value → Option Severity
  | .text name => named? name
  | _ => none

instance : Json.Documented Severity := ⟨shape, ofValue?, toValue⟩

end Severity

/-- How many observations there are of each severity. -/
structure SeverityCounts where
  error : Nat
  warning : Nat
  info : Nat
  success : Nat
deriving DecidableEq, Inhabited

namespace SeverityCounts

def zero : SeverityCounts := ⟨0, 0, 0, 0⟩

/-- Counts one more observation. -/
def add (counts : SeverityCounts) : Severity → SeverityCounts
  | .error => { counts with error := counts.error + 1 }
  | .warning => { counts with warning := counts.warning + 1 }
  | .info => { counts with info := counts.info + 1 }
  | .success => { counts with success := counts.success + 1 }

def of (severities : List Severity) : SeverityCounts := severities.foldl add zero

def plus (first second : SeverityCounts) : SeverityCounts :=
  ⟨first.error + second.error, first.warning + second.warning, first.info + second.info,
    first.success + second.success⟩

def total (counts : SeverityCounts) : Nat :=
  counts.error + counts.warning + counts.info + counts.success

def shape : Shape := Shape.record "struct SeverityCounts" [
  Shape.required "error" Shape.nat32,
  Shape.required "warning" Shape.nat32,
  Shape.required "info" Shape.nat32,
  Shape.required "success" Shape.nat32]

def toValue (counts : SeverityCounts) : Value := .object [
  ("error", .natural counts.error),
  ("info", .natural counts.info),
  ("success", .natural counts.success),
  ("warning", .natural counts.warning)]

def ofValue? (value : Value) : Option SeverityCounts := do
  return {
    error := ← value.field? "error" Value.asNat32?
    warning := ← value.field? "warning" Value.asNat32?
    info := ← value.field? "info" Value.asNat32?
    success := ← value.field? "success" Value.asNat32? }

instance : Json.Documented SeverityCounts := ⟨shape, ofValue?, toValue⟩

end SeverityCounts

end Vetting
