import Vetting.Scope.Flatten
import Vetting.Rule.Stage

/-!
Contract: the names that the assertions of one stage see.

Owns:
- what a stage is checked on: its document, catalog and signals;
- the table of names with their values, and which source wins;
- the approximate size of a table.

Does not own: paths into the document, which an operator rule may use as well.

Sources, a later one winning: unambiguous bare keys that are no flattened name,
the flattened document under `payload`, the catalog of the stage, and the
flattened signals of earlier steps under `steps`.
-/

namespace Vetting.Scope

open Json (Value)
open Rule (Stage CatalogEntry)

/-- The table of visible names. -/
abbrev Names : Type := Dictionary Value

/-- Signals of steps: step key, then signal name, then value. -/
abbrev Signals : Type := Dictionary (Dictionary Value)

/-- The name under which the document is visible. -/
def documentRoot : String := "payload"

/-- The name under which signals are visible. -/
def signalRoot : String := "steps"

/-- What the assertions of a stage are checked on. -/
structure StageInput where
  stage : Stage
  /-- The submitted document, or the outputs of the step. -/
  payload : Value
  catalog : List CatalogEntry
  signals : Signals

namespace StageInput

/-- Names given by the document. -/
def documentNames (input : StageInput) : Names :=
  Dictionary.ofEntries (flattened documentRoot input.payload)

/-- The bare keys of a document that may be used as names. -/
def bareNames (input : StageInput) : Names :=
  Dictionary.ofEntries (unambiguous (leaves input.payload))

/-- The name a catalog entry gives in a stage, if it gives one. -/
def catalogName? (input : StageInput) (entry : CatalogEntry) : Option (String × Value) :=
  if entry.stage = input.stage then
    match Document.resolve? input.payload entry.path with
    | some value => some (entry.name, value)
    | none => if entry.required then some (entry.name, .null) else none
  else none

/-- Names given by the catalog, in its order. -/
def catalogNames (input : StageInput) : List (String × Value) :=
  input.catalog.filterMap input.catalogName?

/-- Names given by the signals of earlier steps. -/
def signalNames (input : StageInput) : List (String × Value) :=
  input.signals.flatMap fun (step, signals) =>
    signals.flatMap fun (name, value) =>
      flattened (signalRoot ++ "." ++ step ++ "." ++ name) value

/-- All visible names. -/
def names (input : StageInput) (bareKeys : Bool) : Names :=
  let document := input.documentNames
  let bare := if bareKeys then input.bareNames else []
  Dictionary.merge
    (Dictionary.merge (Dictionary.merge bare document) input.catalogNames) input.signalNames

end StageInput

/-- The approximate size of a table: its names and the compact texts of its values, in bytes. -/
def Names.size (names : Names) : Nat :=
  names.foldl (fun size (name, value) => size + name.utf8ByteSize + value.compact.utf8ByteSize) 0

end Vetting.Scope
