import Vetting.Document.Path
import Vetting.Json.Printer

/-!
Contract: the names a document gives to its parts.

Owns:
- flattened names, which join the keys on the way to a part with dots;
- bare keys that are unambiguous in a document.

Does not own: which of these names an assertion sees (`Vetting.Scope.Names`).

An array is named as a whole; of its items only objects and arrays are looked
into, under the position of the item.  A bare key names a value if it occurs
exactly once in the whole document as the key of a value that is no object.
-/

namespace Vetting.Scope

open Json (Value)

/-- Whether a value has parts of its own. -/
def isContainer : Value → Bool
  | .object _ => true
  | .array _ => true
  | _ => false

mutual

/-- The named parts of a value that has the given name itself. -/
def flattened (name : String) : Value → List (String × Value)
  | .object entries => flattenedEntries name entries
  | .array items => (name, .array items) :: flattenedItems name 0 items
  | scalar => [(name, scalar)]

/-- The named parts of the entries of an object. -/
def flattenedEntries (name : String) : List (String × Value) → List (String × Value)
  | [] => []
  | (key, value) :: rest =>
    flattened (name ++ "." ++ key) value ++ flattenedEntries name rest

/-- The named parts of the items of an array from a position on. -/
def flattenedItems (name : String) (position : Nat) : List Value → List (String × Value)
  | [] => []
  | item :: rest =>
    (if isContainer item then flattened (name ++ "." ++ toString position) item else []) ++
      flattenedItems name (position + 1) rest

end

mutual

/-- Every occurrence of a key with a value that is no object, in the whole tree. -/
def leaves : Value → List (String × Value)
  | .object entries => leavesOfEntries entries
  | .array items => leavesOfItems items
  | _ => []

def leavesOfEntries : List (String × Value) → List (String × Value)
  | [] => []
  | (key, value) :: rest =>
    (match value with
      | .object _ => []
      | _ => [(key, value)]) ++ leaves value ++ leavesOfEntries rest

def leavesOfItems : List Value → List (String × Value)
  | [] => []
  | item :: rest => leaves item ++ leavesOfItems rest

end

/-- The occurrences whose key occurs only once. -/
def unambiguous (occurrences : List (String × Value)) : List (String × Value) :=
  occurrences.filter fun occurrence =>
    (occurrences.filter fun other => other.1 == occurrence.1).length == 1

end Vetting.Scope
