import Vetting.Json.Shape

/-!
Contract: taking typed values out of JSON values.

Owns:
- single values as texts, truth values, integers and floats;
- lists and dictionaries of typed values;
- fields of objects that are required, optional or have a default.

Does not own: faults; a value that does not fit gives none, and
`Vetting.Json.Shape` says why.
-/

namespace Vetting.Json.Value

def asText? : Value → Option String
  | .text value => some value
  | _ => none

def asBoolean? : Value → Option Bool
  | .boolean value => some value
  | _ => none

def asInteger? : Value → Option Int
  | .number (.integer value) => some value
  | _ => none

/-- An integer between two bounds. -/
def asIntegerIn? (least greatest : Int) : Value → Option Int
  | .number (.integer value) => if least ≤ value ∧ value ≤ greatest then some value else none
  | _ => none

/-- A natural number up to a bound. -/
def asNat? (greatest : Nat) : Value → Option Nat
  | .number (.integer value) =>
    if 0 ≤ value ∧ value ≤ greatest then some value.toNat else none
  | _ => none

/-- An integer of 32 bits. -/
def asInt32? : Value → Option Int := asIntegerIn? (Width.leastInt 32) (Width.greatestInt 32)

/-- An integer of 64 bits. -/
def asInt64? : Value → Option Int := asIntegerIn? (Width.leastInt 64) (Width.greatestInt 64)

/-- A natural number of 32 bits. -/
def asNat32? : Value → Option Nat := asNat? (Width.greatestNat 32)

/-- A natural number of 64 bits. -/
def asNat64? : Value → Option Nat := asNat? (Width.greatestNat 64)

def asFloat? : Value → Option Float
  | .number (.float value) => some value
  | _ => none

/-- Every item, or none if one does not fit. -/
def takeItems? (take? : Value → Option α) : List Value → Option (List α)
  | [] => some []
  | item :: rest => do return (← take? item) :: (← takeItems? take? rest)

/-- Every entry, or none if one does not fit. -/
def takeEntries? (take? : Value → Option α) : List (String × Value) → Option (List (String × α))
  | [] => some []
  | (key, value) :: rest => do return (key, ← take? value) :: (← takeEntries? take? rest)

def asList? (take? : Value → Option α) : Value → Option (List α)
  | .array items => takeItems? take? items
  | _ => none

def asDictionary? (take? : Value → Option α) : Value → Option (Dictionary α)
  | .object entries => takeEntries? take? entries
  | _ => none

/-- A value that is null or fits. -/
def asOption? (take? : Value → Option α) : Value → Option (Option α)
  | .null => some none
  | value => (take? value).map some

/-- A field that has to be there. -/
def field? (key : String) (take? : Value → Option α) (value : Value) : Option α :=
  match value.get? key with
  | some held => take? held
  | none => none

/-- A field with a default. -/
def fieldOr? (key : String) (take? : Value → Option α) (default : α) : Value → Option α
  | .object entries => match Dictionary.lookup? key entries with
    | some held => take? held
    | none => some default
  | _ => none

/-- A field that may be absent or null. -/
def optionalField? (key : String) (take? : Value → Option α) (value : Value) : Option (Option α) :=
  fieldOr? key (asOption? take?) none value

end Vetting.Json.Value
