import Vetting.Scope.Names

/-!
Contract: messages with placeholders `{{name}}`.

Owns:
- the pieces of a template;
- how a value is shown in a message;
- filling a template from a table of names.

Does not own: which names are visible.

A template is read once from left to right: a placeholder runs from two opening
braces to the next two closing braces, and what is inserted is never read again.
A placeholder whose name is not visible stays as it is, and so does the rest of a
template after two opening braces that are never closed.
-/

namespace Vetting.Scope

open Json (Value)

/-- The characters before and after the first occurrence of a doubled character. -/
def cutAtDouble? (mark : Char) : List Char → Option (List Char × List Char)
  | first :: second :: rest =>
    if first = mark ∧ second = mark then some ([], rest)
    else (cutAtDouble? mark (second :: rest)).map fun (before, after) => (first :: before, after)
  | _ => none

/-- How a value is shown in a message: texts bare, all else in its compact form. -/
def shown : Value → String
  | .text value => value
  | other => other.compact

/-- What a placeholder with the given body becomes. -/
def filledPlaceholder (names : Names) (body : List Char) : String :=
  match Dictionary.lookup? (String.ofList (Text.trimBlanks body)) names with
  | some value => shown value
  | none => "\x7b\x7b" ++ String.ofList body ++ "\x7d\x7d"

/-- Fills at most `fuel` placeholders. -/
def fillFrom (names : Names) : Nat → List Char → String
  | 0, template => String.ofList template
  | fuel + 1, template =>
    match cutAtDouble? '\x7b' template with
    | none => String.ofList template
    | some (before, inside) =>
      match cutAtDouble? '\x7d' inside with
      | none => String.ofList template
      | some (body, rest) =>
        String.ofList before ++ filledPlaceholder names body ++ fillFrom names fuel rest

/-- The message of a template. -/
def fill (template : String) (names : Names) : String :=
  fillFrom names template.length template.toList

end Vetting.Scope
