import Vetting.Json.Value
import Vetting.Text.Blank
import Vetting.Width

/-!
Contract: paths into a document, such as `rows[0].id` or `rows.0.id`.

Owns:
- the grammar of paths and the steps they stand for;
- the descent along a path.

Does not own: names visible to assertions, which may contain dots as well.

A path is a list of parts between dots.  A part is a head, which may be empty,
followed by groups `[number]`; it is not empty itself.  A head that reads as an
unsigned integer and every group are an index, any other head is a key.  An
index selects an item of an array, or the entry of an object whose key is the
index in plain decimal digits.
-/

namespace Vetting.Document

open Vetting.Json (Value)

/-- One step of a descent. -/
inductive Step where
  | key (name : String)
  | index (position : Nat)
deriving DecidableEq, Repr

/-- Adds up decimal digits, or none if some character is not a digit. -/
def digitsValue? (built : Nat) : List Char → Option Nat
  | [] => some built
  | digit :: rest =>
    if digit.isDigit then digitsValue? (built * 10 + (digit.toNat - '0'.toNat)) rest else none

/-- An unsigned integer below `2 ^ 64`: decimal digits, after an optional plus sign. -/
def unsigned? (text : List Char) : Option Nat :=
  let digits := match text with
    | '+' :: rest => rest
    | other => other
  if digits.isEmpty then none
  else match digitsValue? 0 digits with
    | some value => if value < Width.count 64 then some value else none
    | none => none

/-- The indices of groups `[number]`, or none if the text is not made of such groups. -/
def groups? : Nat → List Char → Option (List Step)
  | _, [] => some []
  | 0, _ => none
  | fuel + 1, character :: rest =>
    if character = '[' then
      match Text.cutOnce? ']' rest with
      | none => none
      | some (inner, after) =>
        match unsigned? (Text.trimBlanks inner) with
        | none => none
        | some position => (groups? fuel after).map (.index position :: ·)
    else none

/-- The step of a head: an index if it reads as one, a key otherwise. -/
def headStep (head : List Char) : Step :=
  match unsigned? head with
  | some position => .index position
  | none => .key (String.ofList head)

/-- The steps of a part between dots. -/
def part? (part : List Char) : Option (List Step) :=
  let head := part.takeWhile (· ≠ '[')
  let rest := part.dropWhile (· ≠ '[')
  match part with
  | [] => none
  | _ :: _ =>
    (groups? rest.length rest).map fun groups =>
      if head.isEmpty then groups else headStep head :: groups

/-- The steps of parts, one after the other. -/
def parts? : List (List Char) → Option (List Step)
  | [] => some []
  | part :: rest =>
    match part? part, parts? rest with
    | some steps, some more => some (steps ++ more)
    | _, _ => none

/-- The steps of a nonempty path without white space at its ends. -/
def steps? (path : List Char) : Option (List Step) :=
  parts? (Text.cutAt '.' path)

/-- One step down. -/
def child? : Step → Value → Option Value
  | .key name, .object entries => Dictionary.lookup? name entries
  | .index position, .array items => items[position]?
  | .index position, .object entries => Dictionary.lookup? (toString position) entries
  | _, _ => none

/-- The value at the end of a descent. -/
def descend? : List Step → Value → Option Value
  | [], value => some value
  | step :: rest, value =>
    match child? step value with
    | some inner => descend? rest inner
    | none => none

/-- The value at a path.  White space around the path is ignored, and the empty path is the whole
document. -/
def resolve? (root : Value) (path : String) : Option Value :=
  match Text.trimBlanks path.toList with
  | [] => some root
  | trimmed => match steps? trimmed with
    | some steps => descend? steps root
    | none => none

end Vetting.Document
