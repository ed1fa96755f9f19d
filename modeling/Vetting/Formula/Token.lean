import Vetting.Formula.Fault
import Vetting.Decimal.Parse
import Vetting.Text.Hexadecimal
import Vetting.Width

/-!
Contract: the tokens of an expression.

Owns:
- marks, which are characters or words whose meaning depends on what follows;
- tokens, and how marks become tokens;
- comments and quoted texts.

Does not own: the structure of an expression (`Vetting.Formula.Tree`).

Everything that is no operator, parenthesis, separator, quote or white space is
part of a word, so names may hold dots and colons.  A word is a number or a truth
value if it reads as one, and a name otherwise.  Of a comment nothing remains,
not even a gap between words.
-/

namespace Vetting.Formula

/-- A token of an expression. -/
inductive Token where
  | plus
  | minus
  | star
  | slash
  | percent
  | hat
  | eq
  | neq
  | gt
  | lt
  | geq
  | leq
  | and
  | or
  | not
  | opening
  | closing
  /-- The sign `=`, or an operator and `=`. -/
  | assign (combined : Bool)
  | comma
  | semicolon
  | name (name : String)
  | constant (value : Value)
deriving Inhabited

namespace Token

/-- A value may begin with this token. -/
def beginsValue : Token → Bool
  | .opening | .name _ | .constant _ => true
  | _ => false

/-- A value may end with this token. -/
def endsValue : Token → Bool
  | .closing | .name _ | .constant _ => true
  | _ => false

def isAssignment : Token → Bool
  | .assign _ => true
  | _ => false

end Token

/-- A character or word whose meaning depends on what follows. -/
inductive Mark where
  /-- A text between quotes. -/
  | quoted (text : String)
  | word (characters : List Char)
  | blank
  /-- A character that is an operator, or part of one. -/
  | sign (character : Char)

/-- Characters that are no part of a word. -/
def isSign (character : Char) : Bool := "+-*/%^(),;=!><&|".toList.contains character

/-- How a mark is shown. -/
def Mark.shown : Mark → String
  | .quoted text => Text.quoted text
  | .word characters => String.ofList characters
  | .blank => " "
  | .sign character => String.singleton character

/-- The text after an opening quote, and what follows the closing one. -/
def quotedRest : List Char → Except Fault (List Char × List Char)
  | [] => .error .unclosedText
  | '"' :: rest => .ok ([], rest)
  | ['\\'] => .error (.illegalEscape "\\")
  | '\\' :: character :: rest =>
    if character = '"' ∨ character = '\\' then do
      let (inner, after) ← quotedRest rest
      return (character :: inner, after)
    else .error (.illegalEscape ("\\" ++ String.singleton character))
  | character :: rest => do
    let (inner, after) ← quotedRest rest
    return (character :: inner, after)

/-- What follows a comment that runs to the end of the line. -/
def afterLine : List Char → List Char
  | [] => []
  | '\n' :: rest => rest
  | _ :: rest => afterLine rest

/-- What follows the end of a comment. -/
def afterComment? : List Char → Option (List Char)
  | '*' :: '/' :: rest => some rest
  | _ :: rest => afterComment? rest
  | [] => none

/-- Puts a mark before others; adjacent words are one word. -/
def Mark.before : Mark → List Mark → List Mark
  | .word first, .word second :: rest => .word (first ++ second) :: rest
  | mark, rest => mark :: rest

/-- The marks of a text that has at most `fuel` characters. -/
def marks : Nat → List Char → Except Fault (List Mark)
  | _, [] => .ok []
  | 0, _ => .ok []
  | fuel + 1, '"' :: rest => do
    let (inner, after) ← quotedRest rest
    return .quoted (String.ofList inner) :: (← marks fuel after)
  | fuel + 1, '/' :: '/' :: rest => marks fuel (afterLine rest)
  | fuel + 1, '/' :: '*' :: rest =>
    match afterComment? rest with
    | some after => marks fuel after
    | none => .error .unclosedComment
  | fuel + 1, character :: rest => do
    let mark :=
      if isSign character then Mark.sign character
      else if Text.isBlank character then .blank
      else .word [character]
    return mark.before (← marks fuel rest)

/-- A whole number in digits, or in hexadecimal digits after `0x`, that has 64 bits. -/
def wholeNumber? (word : List Char) : Option Int :=
  let inRange (value : Nat) : Option Int :=
    if value < Width.count 63 then some value else none
  match word with
  | '0' :: 'x' :: digits =>
    if digits.isEmpty then none else (Text.Hexadecimal.number? digits).bind inRange
  | digits =>
    if digits.isEmpty || !digits.all Char.isDigit then none
    else inRange (digits.foldl (fun value digit => value * 10 + (digit.toNat - '0'.toNat)) 0)

/-- The constant a word stands for, if it is not a name. -/
def constant? (word : List Char) : Option Value :=
  match wholeNumber? word with
  | some value => some (.int value)
  | none => match Decimal.float? word with
    | some value => some (.float value)
    | none =>
      if word = "true".toList then some (.boolean true)
      else if word = "false".toList then some (.boolean false)
      else none

/-- The operators of one or two signs that begin with the given sign. -/
def signToken (character : Char) (equalsFollows : Bool) : Token :=
  match character, equalsFollows with
  | '+', false => .plus
  | '-', false => .minus
  | '*', false => .star
  | '/', false => .slash
  | '%', false => .percent
  | '^', false => .hat
  | '=', false => .assign false
  | '=', true => .eq
  | '!', false => .not
  | '!', true => .neq
  | '>', false => .gt
  | '>', true => .geq
  | '<', false => .lt
  | '<', true => .leq
  | _, _ => .assign true

/-- The tokens of marks. -/
def tokensOfMarks : Nat → List Mark → Except Fault (List Token)
  | _, [] => .ok []
  | 0, _ => .ok []
  | fuel + 1, .blank :: rest => tokensOfMarks fuel rest
  | fuel + 1, .quoted text :: rest => do
    return .constant (.text text) :: (← tokensOfMarks fuel rest)
  | fuel + 1, .word word :: rest => do
    match constant? word with
    | some value => return .constant value :: (← tokensOfMarks fuel rest)
    | none =>
      let named := do return Token.name (String.ofList word) :: (← tokensOfMarks fuel rest)
      match rest with
      | .sign sign :: third :: after =>
        if sign = '+' ∨ sign = '-' then
          match Decimal.float? (word ++ sign :: third.shown.toList) with
          | some value => return .constant (.float value) :: (← tokensOfMarks fuel after)
          | none => named
        else named
      | _ => named
  | fuel + 1, .sign sign :: rest =>
    if sign = '(' then do return .opening :: (← tokensOfMarks fuel rest)
    else if sign = ')' then do return .closing :: (← tokensOfMarks fuel rest)
    else if sign = ',' then do return .comma :: (← tokensOfMarks fuel rest)
    else if sign = ';' then do return .semicolon :: (← tokensOfMarks fuel rest)
    else if sign = '&' ∨ sign = '|' then
      match rest with
      | [] => .error (.halfOperator (String.singleton sign) none)
      | .sign second :: after =>
        if second = sign then
          match after with
          | .sign '=' :: afterEquals => do
            return .assign true :: (← tokensOfMarks fuel afterEquals)
          | _ => do
            return (if sign = '&' then .and else .or) :: (← tokensOfMarks fuel after)
        else .error (.halfOperator (String.singleton sign) (some (String.singleton second)))
      | second :: _ => .error (.halfOperator (String.singleton sign) (some second.shown))
    else
      match rest with
      | .sign '=' :: after => do return signToken sign true :: (← tokensOfMarks fuel after)
      | _ => do return signToken sign false :: (← tokensOfMarks fuel rest)

/-- The tokens of an expression. -/
def tokens (expression : String) : Except Fault (List Token) := do
  let marks ← marks (expression.length + 1) expression.toList
  tokensOfMarks (marks.length + 1) marks

end Vetting.Formula
