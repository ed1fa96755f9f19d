import Vetting.Json.Documented
import Vetting.Text.Hexadecimal

/-!
Contract: universally unique identifiers.

Owns:
- identifiers and their text in five groups of hexadecimal digits;
- the texts that denote an identifier, and why another one does not.

Does not own: how fresh identifiers are found.

Digits are read in either case, without hyphens, in the five groups, and the groups
also in braces or after `urn:uuid:`.  Identifiers are written in lower case in
their groups.
-/

namespace Vetting

/-- An identifier, as the number that its digits denote. -/
structure Uuid where
  number : Nat
deriving DecidableEq, Inhabited

namespace Uuid

open Text.Hexadecimal (padded digit? number?)

/-- The identifier without any bit set. -/
def zero : Uuid := ⟨0⟩

/-- The text of an identifier. -/
def text (id : Uuid) : String :=
  String.ofList (padded 8 (id.number / Nat.pow 16 24) ++
    '-' :: padded 4 (id.number / Nat.pow 16 20 % Nat.pow 16 4) ++
    '-' :: padded 4 (id.number / Nat.pow 16 16 % Nat.pow 16 4) ++
    '-' :: padded 4 (id.number / Nat.pow 16 12 % Nat.pow 16 4) ++
    '-' :: padded 12 (id.number % Nat.pow 16 12))

/-- Why a text denotes no identifier. -/
inductive Fault where
  /-- A character is neither a hexadecimal digit nor a hyphen; its position counts bytes. -/
  | character (found : Char) (position : Nat)
  | length (found : Nat)
  | groupCount (found : Nat)
  | groupLength (group expected found : Nat)
deriving DecidableEq, Inhabited

def Fault.message : Fault → String
  | .character found position =>
    "invalid character: found `" ++ String.singleton found ++ "` at " ++ toString position
  | .length found => "invalid length: found " ++ toString found
  | .groupCount found => "invalid group count: expected 5, found " ++ toString found
  | .groupLength group expected found =>
    "invalid group length in group " ++ toString group ++ ": expected " ++ toString expected ++
      ", found " ++ toString found

/-- The identifier of digits in groups. -/
private def ofGroups? (characters : List Char) : Option Uuid :=
  match Text.cutAt '-' characters with
  | [first, second, third, fourth, fifth] =>
    if [first, second, third, fourth, fifth].map List.length = [8, 4, 4, 4, 12] then
      (number? (first ++ second ++ third ++ fourth ++ fifth)).map Uuid.mk
    else none
  | _ => none

/-- The text inside braces or after the name of the scheme, how many characters stand before it,
and whether it stands alone. -/
private def unwrapped (characters : List Char) : List Char × Nat × Bool :=
  match characters with
  | '\x7b' :: rest =>
    if rest.getLast? = some '\x7d' then (rest.dropLast, 1, false) else (characters, 0, true)
  | _ => match Text.afterText? "urn:uuid:" (String.ofList characters) with
    | some rest => (rest.toList, 9, false)
    | none => (characters, 0, true)

/-- The first character that belongs to no identifier, with its position. -/
private def strangeCharacter? : Nat → List Char → Option Fault
  | _, [] => none
  | position, character :: rest =>
    if character = '-' ∨ (digit? character).isSome then
      strangeCharacter? (position + character.utf8Size) rest
    else some (.character character position)

/-- The first group of a length that no identifier has. -/
private def wrongGroup : Nat → List (Nat × Nat) → Fault
  | group, (expected, found) :: rest =>
    if expected = found then wrongGroup (group + 1) rest else .groupLength group expected found
  | group, [] => .groupLength group 0 0

private def faultOf (inside : List Char) (offset : Nat) (alone : Bool) : Fault :=
  match strangeCharacter? offset inside with
  | some fault => fault
  | none =>
    let groups := Text.cutAt '-' inside
    if groups.length = 1 && alone then .length inside.length
    else if groups.length = 5 then wrongGroup 0 ([8, 4, 4, 4, 12].zip (groups.map List.length))
    else .groupCount groups.length

/-- The identifier that a text denotes. -/
def read (text : String) : Except Fault Uuid :=
  let (inside, offset, alone) := unwrapped text.toList
  let plain? : Option Uuid :=
    if alone && inside.length = 32 then (number? inside).map Uuid.mk else none
  match plain?.or (ofGroups? inside) with
  | some id => .ok id
  | none => .error (faultOf inside offset alone)

def read? (text : String) : Option Uuid := (read text).toOption

def shape : Json.Shape :=
  Json.Shape.parsed "a UUID string" fun text =>
    match read text with
    | .ok _ => none
    | .error fault => some ("UUID parsing failed: " ++ fault.message)

def toValue (id : Uuid) : Json.Value := .text id.text

def ofValue? : Json.Value → Option Uuid
  | .text text => read? text
  | _ => none

instance : Json.Documented Uuid := ⟨shape, ofValue?, toValue⟩

end Uuid

end Vetting
