import Vetting.Execution.Plugin
import Vetting.Digest.Sha256

/-!
Contract: the validators that come with the engine.

Owns:
- three validators that work at once: facts about the content, JSON syntax, and
  required keys;
- validators that are containers;
- the registry of all of them.

Does not own: how the jobs of containers are carried out.
-/

namespace Vetting.Builtin

open Json (Value)

/-- A validator that works at once. -/
abbrev InlineValidator : Type := Submission → Validator → Except EngineFault ValidationOutcome

/-- Passes always and tells facts about the content. -/
def basic : InlineValidator := fun submission _ => .ok {
  passed := true
  issues := []
  signals := [
    ("file_type", .text submission.fileType),
    ("sha256", .text (Digest.Sha256.ofBytes submission.content)),
    ("size_bytes", .natural submission.content.size)] }

/-- The issue of a content that is no JSON document. -/
def syntaxIssue (fault : Json.Fault) : Issue :=
  let place := fault.place.getD ⟨0, 0⟩
  { Issue.error "json_syntax" ("Document is not valid JSON: " ++ fault.message) with
    path := some ("line " ++ toString place.line ++ ", column " ++ toString place.column)
    details := .object [("column", .natural place.column), ("line", .natural place.line)] }

/-- Passes if the content is a JSON document, and an object if the configuration wants one. -/
def jsonSyntax : InlineValidator := fun submission validator =>
  match Json.readBytes submission.content with
  | .error fault => .ok ⟨false, [syntaxIssue fault], []⟩
  | .ok document =>
    let wantsObject := validator.config.field? "require_object" Value.asBoolean? == some true
    match document with
    | .object entries => .ok ⟨true, [], [("top_level_keys", .natural entries.length)]⟩
    | _ =>
      if wantsObject then
        .ok ⟨false, [.error "json_root" "Document root must be a JSON object."], []⟩
      else .ok ⟨true, [], [("top_level_keys", .natural 0)]⟩

/-- Whether a document has a value other than null at a path. -/
def hasKey (document : Value) (key : String) : Bool :=
  match Document.resolve? document key with
  | some value => !value.isNull
  | none => false

/-- Passes if the document has a value at every path that the configuration names. -/
def requiredKeys : InlineValidator := fun submission validator =>
  match validator.config.get? "keys" with
  | some (.array items) =>
    match submission.document? with
    | none => .error (.execution "required_keys validator needs a JSON document")
    | some document =>
      let keys := items.filterMap Value.asText?
      let missing := keys.filter fun key => !hasKey document key
      let issues := missing.map fun key =>
        { Issue.error "missing_key" ("Required key '" ++ key ++ "' is missing.") with
          path := some key }
      .ok {
        passed := missing.isEmpty
        issues
        signals := [("present_keys", .natural (keys.length - missing.length))] }
  | _ => .error (.configuration "required_keys validator needs a 'keys' array in its config")

/-- A validator whose job is a container.  Its outputs may say which signals they are; a default
image stands in for a missing one. -/
def container (defaultImage : Option String) : ExternalValidator where
  jobConfig validator :=
    let config := match validator.config with
      | .object entries => entries
      | _ => []
    match Dictionary.lookup? "image" config, defaultImage with
    | none, some image => .object (Dictionary.insert "image" (.text image) config)
    | _, _ => .object config
  outputSignals envelope :=
    match envelope.outputs.get? "signals" with
    | some (.object signals) => signals
    | _ => envelope.outputEntries

/-- The validators that work at once, by type. -/
def inlineValidators : Dictionary InlineValidator := [
  ("basic", basic),
  ("json_syntax", jsonSyntax),
  ("required_keys", requiredKeys)]

/-- The registry of all validators that come with the engine. -/
def validators : ValidatorRegistry :=
  ("basic", fun _ => .ok .inline) ::
  ("container", fun _ => .ok (.external (container none))) ::
  ("json_syntax", fun _ => .ok .inline) ::
  [("required_keys", fun _ => .ok .inline)]

/-- What the inline validator of a type finds. -/
def validate (submission : Submission) (validator : Validator) :
    Except EngineFault ValidationOutcome :=
  match Dictionary.lookup? validator.type inlineValidators with
  | some check => check submission validator
  | none =>
    .error (.configuration ("validator type '" ++ validator.type ++ "' is not registered"))

end Vetting.Builtin
