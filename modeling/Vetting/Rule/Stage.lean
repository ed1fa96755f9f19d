import Vetting.Json.Documented

/-!
Contract: the two stages at which a step is checked, and named entries of the
document of a stage.

Owns:
- stages and their names;
- catalog entries, which give a place of a document a name of its own.

Does not own: how names become visible (`Vetting.Scope`).
-/

namespace Vetting.Rule

open Json (Value Shape)

/-- When an assertion is checked: on the submitted document or on the outputs of a step. -/
inductive Stage where
  | input
  | output
deriving DecidableEq, Inhabited, Repr

namespace Stage

def name : Stage → String
  | .input => "input"
  | .output => "output"

def shape : Shape := Shape.choice [["input"], ["output"]]

def toValue (stage : Stage) : Value := .text stage.name

def ofValue? : Value → Option Stage
  | .text "input" => some .input
  | .text "output" => some .output
  | _ => none

instance : Json.Documented Stage := ⟨shape, ofValue?, toValue⟩

end Stage

/-- A name for a place in the document of a stage. -/
structure CatalogEntry where
  name : String
  path : String
  stage : Stage
  /-- A required entry whose place does not exist is null instead of absent. -/
  required : Bool
deriving DecidableEq, Inhabited

namespace CatalogEntry

def shape : Shape := Shape.record "struct CatalogEntry" [
  Shape.required "name" Shape.text,
  Shape.required "path" Shape.text,
  Shape.defaulted "stage" Stage.shape (.text "input"),
  Shape.defaulted "required" Shape.boolean (.boolean false)]

def toValue (entry : CatalogEntry) : Value := .object [
  ("name", .text entry.name),
  ("path", .text entry.path),
  ("required", .boolean entry.required),
  ("stage", entry.stage.toValue)]

def ofValue? (value : Value) : Option CatalogEntry := do
  return {
    name := ← value.field? "name" Value.asText?
    path := ← value.field? "path" Value.asText?
    stage := ← value.fieldOr? "stage" Stage.ofValue? .input
    required := ← value.fieldOr? "required" Value.asBoolean? false }

instance : Json.Documented CatalogEntry := ⟨shape, ofValue?, toValue⟩

end CatalogEntry

end Vetting.Rule
