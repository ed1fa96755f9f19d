import Vetting.Text.CharacterClass

/-!
Contract: trimming of white space and cutting of texts at characters.

Owns:
- removal of white space at the ends of a text;
- cutting at every occurrence of a character.

Does not own: which characters are white space (`Vetting.Text.isBlank`).
-/

namespace Vetting.Text

/-- Removes white space at both ends of a list of characters. -/
def trimBlanks (characters : List Char) : List Char :=
  ((characters.dropWhile isBlank).reverse.dropWhile isBlank).reverse

/-- Removes white space at both ends of a text. -/
def trimmed (text : String) : String := String.ofList (trimBlanks text.toList)

/-- Whether a text holds nothing but white space. -/
def isBlankText (text : String) : Bool := text.toList.all isBlank

/-- The pieces between the occurrences of a character, at least one piece. -/
def cutAt (separator : Char) : List Char → List (List Char)
  | [] => [[]]
  | character :: rest =>
    if character = separator then [] :: cutAt separator rest
    else match cutAt separator rest with
      | [] => [[character]]
      | piece :: pieces => (character :: piece) :: pieces

/-- The pieces of a text between the occurrences of a character. -/
def pieces (separator : Char) (text : String) : List String :=
  (cutAt separator text.toList).map String.ofList

/-- The characters before and after the first occurrence of a character. -/
def cutOnce? (separator : Char) : List Char → Option (List Char × List Char)
  | [] => none
  | character :: rest =>
    if character = separator then some ([], rest)
    else (cutOnce? separator rest).map fun (before, after) => (character :: before, after)

/-- Whether a list of characters begins with the given characters; what follows them. -/
def after? : List Char → List Char → Option (List Char)
  | [], rest => some rest
  | _ :: _, [] => none
  | expected :: more, character :: rest =>
    if expected = character then after? more rest else none

/-- What follows the given beginning of a text. -/
def afterText? (beginning text : String) : Option String :=
  (after? beginning.toList text.toList).map String.ofList

/-- Whether one text occurs in another. -/
def occursIn (part text : List Char) : Bool :=
  match text with
  | [] => part.isEmpty
  | _ :: rest => (after? part text).isSome || occursIn part rest

/-- Texts with a separator between them. -/
def joined (separator : String) : List String → String
  | [] => ""
  | [text] => text
  | text :: rest => text ++ separator ++ joined separator rest

end Vetting.Text
