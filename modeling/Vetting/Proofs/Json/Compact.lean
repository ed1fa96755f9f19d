import Mathlib.Data.List.Basic
import Vetting.Json.Printer
import Vetting.Text.Hexadecimal

/-!
Contract: compact texts are read in one way only.

Owns:
- the three forms of a character inside a string, and that its text ends where it ends;
- the digits of an integer end where a delimiter follows;
- the first character of a compact text tells the kind of value;
- values without floating-point numbers that have the same compact text are the same.

Does not own: floating-point numbers, whose digits are a matter of `Decimal`; the order of keys.
-/

namespace Vetting.Json

open Text.Hexadecimal (number?)

/-! ### Characters inside a string -/

/-- The characters that are written as a backslash and one letter. -/
def shortEscapes : List (Char × Char) :=
  [('"', '"'), ('\\', '\\'), ('\n', 'n'), ('\r', 'r'), ('\t', 't'), ('\x08', 'b'), ('\x0c', 'f')]

/-- A character inside a string is a backslash and a letter, four hexadecimal digits, or itself. -/
theorem escaped_cases (character : Char) :
    (∃ letter, (character, letter) ∈ shortEscapes ∧ (escaped character).toList = ['\\', letter]) ∨
    (∃ digits, (escaped character).toList = '\\' :: 'u' :: digits ∧ digits.length = 4 ∧
      number? digits = some character.toNat) ∨
    (character ≠ '"' ∧ character ≠ '\\' ∧ (escaped character).toList = [character]) := by
  have short : ∀ entry ∈ shortEscapes, (escaped entry.1).toList = ['\\', entry.2] := by decide
  have control : ∀ code < 0x20, Char.ofNat code ∉ shortEscapes.map Prod.fst →
      (escaped (Char.ofNat code)).toList.take 2 = ['\\', 'u'] ∧
      ((escaped (Char.ofNat code)).toList.drop 2).length = 4 ∧
      number? ((escaped (Char.ofNat code)).toList.drop 2) = some code := by decide
  by_cases isShort : character ∈ shortEscapes.map Prod.fst
  · obtain ⟨⟨same, letter⟩, member, rfl⟩ := List.mem_map.mp isShort
    exact .inl ⟨letter, member, short _ member⟩
  by_cases isControl : character.toNat < 0x20
  · have code := control character.toNat isControl
    rw [Char.ofNat_toNat] at code
    obtain ⟨opens, long, denotes⟩ := code isShort
    refine .inr (.inl ⟨_, ?_, long, denotes⟩)
    rw [← List.take_append_drop 2 (escaped character).toList, opens]
    simp
  · simp only [shortEscapes, List.map, List.mem_cons, List.not_mem_nil, not_or] at isShort
    refine .inr (.inr ⟨isShort.1, isShort.2.1, ?_⟩)
    simp [escaped, isShort, isControl]

/-- The character that a letter after a backslash stands for. -/
def unescaped (letter : Char) : Char :=
  ((shortEscapes.find? (·.2 = letter)).map Prod.fst).getD letter

/-- The character whose text stands first, and what follows; none where the string ends. -/
def takeEscaped? : List Char → Option (Char × List Char)
  | '"' :: _ => none
  | '\\' :: 'u' :: rest => (number? (rest.take 4)).map fun code => (Char.ofNat code, rest.drop 4)
  | '\\' :: letter :: rest => some (unescaped letter, rest)
  | character :: rest => some (character, rest)
  | [] => none

theorem takeEscaped?_escaped (character : Char) (rest : List Char) :
    takeEscaped? ((escaped character).toList ++ rest) = some (character, rest) := by
  rcases escaped_cases character with ⟨letter, member, text⟩ | ⟨digits, text, long, denotes⟩ |
    ⟨noQuote, noBackslash, text⟩
  · have isLetter : ∀ entry ∈ shortEscapes, entry.2 ≠ 'u' ∧ unescaped entry.2 = entry.1 := by
      decide
    obtain ⟨notCode, means⟩ := isLetter _ member
    rw [text, List.cons_append, List.singleton_append, takeEscaped?, means]
    simpa using notCode
  · rw [text, List.cons_append, List.cons_append, takeEscaped?, List.take_left' long,
      List.drop_left' long, denotes, Option.map_some, Char.ofNat_toNat]
  · rw [text, List.singleton_append, takeEscaped?]
    all_goals simp_all

theorem takeEscaped?_quote (rest : List Char) : takeEscaped? ('"' :: rest) = none := rfl

/-- The text of a string between its quotes. -/
def inside (characters : List Char) : List Char :=
  characters.flatMap fun character => (escaped character).toList

theorem takeEscaped?_inside_cons (character : Char) (others rest : List Char) :
    takeEscaped? (inside (character :: others) ++ rest) =
      some (character, inside others ++ rest) := by
  rw [inside, List.flatMap_cons, List.append_assoc, takeEscaped?_escaped, inside]

theorem inside_append_quote_inj {first second rest more : List Char}
    (same : inside first ++ '"' :: rest = inside second ++ '"' :: more) :
    first = second ∧ rest = more := by
  have taken := congrArg takeEscaped? same
  induction first generalizing second with
  | nil =>
    cases second with
    | nil => simpa [inside] using same
    | cons =>
      rw [takeEscaped?_inside_cons] at taken
      exact absurd taken (by simp [inside, takeEscaped?_quote])
  | cons character others inductionHypothesis =>
    rw [takeEscaped?_inside_cons] at taken
    cases second with
    | nil => exact absurd taken (by simp [inside, takeEscaped?_quote])
    | cons other remaining =>
      rw [takeEscaped?_inside_cons] at taken
      obtain ⟨rfl, left⟩ := Prod.mk.inj (Option.some.inj taken)
      obtain ⟨rfl, rfl⟩ := inductionHypothesis left (congrArg _ left)
      exact ⟨rfl, rfl⟩

theorem toList_stringText (text : String) :
    (stringText text).toList = '"' :: inside text.toList ++ ['"'] := by
  rw [stringText, String.foldl_eq_foldl_toList]
  have joined : text.toList.foldl (fun built character => built ++ escaped character) "" =
      String.join (text.toList.map escaped) := by
    rw [String.join, List.foldl_map]
  rw [joined]
  simp [inside, List.flatMap_map]

/-- A string ends where it ends, whatever follows. -/
theorem stringText_append_inj {first second : String} {rest more : List Char}
    (same : (stringText first).toList ++ rest = (stringText second).toList ++ more) :
    first = second ∧ rest = more := by
  simp only [toList_stringText, List.cons_append, List.append_assoc, List.cons.injEq,
    true_and] at same
  obtain ⟨texts, rests⟩ := inside_append_quote_inj same
  exact ⟨String.toList_inj.mp texts, rests⟩

/-! ### Integers -/

/-- What may follow a value inside a document: nothing, a comma or a closing bracket. -/
def Delimited (rest : List Char) : Prop :=
  ∀ character ∈ rest.head?, character = ',' ∨ character = ']' ∨ character = '\x7d'

/-- Whether a character can stand in the text of an integer. -/
def isNumeral (character : Char) : Bool := character = '-' || character.isDigit

theorem toList_toString_natural (number : Nat) :
    (toString number).toList = Nat.toDigits 10 number := by
  rw [Nat.toString_eq_ofList_toDigits, String.toList_ofList]

theorem isDigit_of_mem_toString {number : Nat} {character : Char}
    (member : character ∈ (toString number).toList) : character.isDigit = true := by
  rw [toList_toString_natural] at member
  exact Nat.isDigit_of_mem_toDigits (by omega) (by omega) member

theorem toList_toString_negSucc (number : Nat) :
    (toString (Int.negSucc number)).toList = '-' :: (toString (number + 1)).toList :=
  String.toList_append

theorem isNumeral_of_mem_toString {value : Int} {character : Char}
    (member : character ∈ (toString value).toList) : isNumeral character = true := by
  cases value with
  | ofNat number => simp [isNumeral, isDigit_of_mem_toString member]
  | negSucc number =>
    rw [toList_toString_negSucc, List.mem_cons] at member
    rcases member with rfl | digit
    · rfl
    · simp [isNumeral, isDigit_of_mem_toString digit]

theorem toList_toString_ne_nil (value : Int) : (toString value).toList ≠ [] := by
  cases value with
  | ofNat number =>
    show (toString number).toList ≠ []
    rw [toList_toString_natural]
    exact Nat.toDigits_ne_nil
  | negSucc number =>
    rw [toList_toString_negSucc]
    exact List.cons_ne_nil _ _

/-- The integer of a sign and digits. -/
def integerOf : List Char → Int
  | '-' :: digits => -Nat.ofDigitChars 10 digits 0
  | digits => Nat.ofDigitChars 10 digits 0

theorem integerOf_toString (value : Int) : integerOf (toString value).toList = value := by
  cases value with
  | ofNat number =>
    show integerOf (toString number).toList = number
    unfold integerOf
    split
    next digits sign =>
      exact absurd (isDigit_of_mem_toString (sign ▸ List.mem_cons_self)) (by decide)
    next => rw [toList_toString_natural, Nat.ofDigitChars_ten_toDigits]
  | negSucc number =>
    rw [toList_toString_negSucc, integerOf, toList_toString_natural, Nat.ofDigitChars_ten_toDigits,
      Int.negSucc_eq, Int.natCast_add, Int.natCast_one]

theorem takeWhile_isNumeral {value : Int} {rest : List Char} (delimited : Delimited rest) :
    ((toString value).toList ++ rest).takeWhile isNumeral = (toString value).toList := by
  rw [List.takeWhile_append_of_pos fun _ member => isNumeral_of_mem_toString member]
  cases rest with
  | nil => simp
  | cons character others =>
    have no : isNumeral character = false := by
      rcases delimited character rfl with rfl | rfl | rfl <;> decide
    simp [no]

/-- An integer ends where a delimiter follows. -/
theorem toString_append_inj {first second : Int} {rest more : List Char}
    (delimited : Delimited rest) (ends : Delimited more)
    (same : (toString first).toList ++ rest = (toString second).toList ++ more) :
    first = second ∧ rest = more := by
  have digits := congrArg (List.takeWhile isNumeral) same
  rw [takeWhile_isNumeral delimited, takeWhile_isNumeral ends] at digits
  rw [digits] at same
  refine ⟨?_, List.append_cancel_left same⟩
  rw [← integerOf_toString first, digits, integerOf_toString]

/-! ### Lists of texts between brackets -/

section Lists

variable {α : Type} {text : α → List Char} {first second : α} {firsts seconds : List α}
  {close : Char} {rest more : List Char}

/-- Two things are told apart by their texts, whatever delimited text follows. -/
def Told (text : α → List Char) (first second : α) : Prop :=
  ∀ {rest more : List Char}, Delimited rest → Delimited more →
    text first ++ rest = text second ++ more → first = second ∧ rest = more

/-- Texts, each after a comma. -/
def further (text : α → List Char) (all : List α) : List Char :=
  all.flatMap fun one => ',' :: text one

theorem further_cons (one : α) (others : List α) (rest : List Char) :
    further text (one :: others) ++ rest = ',' :: (text one ++ (further text others ++ rest)) := by
  simp [further]

theorem delimited_further (closes : Delimited [close]) (all : List α) :
    Delimited (further text all ++ close :: rest) := by
  cases all with
  | nil => exact closes
  | cons => simp [further_cons, Delimited]

theorem further_append_inj (closes : Delimited [close]) (noComma : close ≠ ',')
    (told : ∀ first ∈ firsts, ∀ second ∈ seconds, Told text first second)
    (same : further text firsts ++ close :: rest = further text seconds ++ close :: more) :
    firsts = seconds ∧ rest = more := by
  induction firsts generalizing seconds with
  | nil =>
    cases seconds with
    | nil => exact ⟨rfl, (List.cons.inj same).2⟩
    | cons => exact absurd (List.cons.inj (further_cons _ _ _ ▸ same)).1 noComma
  | cons first others inductionHypothesis =>
    rw [further_cons] at same
    cases seconds with
    | nil => exact absurd (List.cons.inj same).1.symm noComma
    | cons second remaining =>
      rw [further_cons] at same
      obtain ⟨rfl, left⟩ := told first (by simp) second (by simp) (delimited_further closes _)
        (delimited_further closes _) (List.cons.inj same).2
      obtain ⟨rfl, rfl⟩ := inductionHypothesis (fun one member other present =>
        told one (List.mem_cons_of_mem _ member) other (List.mem_cons_of_mem _ present)) left
      exact ⟨rfl, rfl⟩

/-- Texts with commas between them. -/
def separated (text : α → List Char) (all : List α) : List Char := (further text all).drop 1

theorem separated_cons (one : α) (others : List α) :
    ',' :: separated text (one :: others) = further text (one :: others) := rfl

/-- A list ends where its bracket stands, if no text of the list begins with that bracket. -/
theorem separated_append_inj (closes : Delimited [close]) (noComma : close ≠ ',')
    (told : ∀ first ∈ firsts, ∀ second ∈ seconds, Told text first second)
    (begins : ∀ one, one ∈ firsts ∨ one ∈ seconds → ∀ rest more, text one ++ rest ≠ close :: more)
    (same : separated text firsts ++ close :: rest = separated text seconds ++ close :: more) :
    firsts = seconds ∧ rest = more := by
  cases firsts with
  | nil =>
    cases seconds with
    | nil => exact ⟨rfl, (List.cons.inj same).2⟩
    | cons second remaining =>
      refine absurd same.symm ?_
      simpa [separated, further] using begins second (by simp) _ _
  | cons first others =>
    cases seconds with
    | nil =>
      refine absurd same ?_
      simpa [separated, further] using begins first (by simp) _ _
    | cons second remaining =>
      refine further_append_inj closes noComma told ?_
      rw [← separated_cons, ← separated_cons, List.cons_append, List.cons_append, same]

end Lists

/-! ### Values -/

/-- The kinds of values. -/
inductive Kind where
  | null
  | boolean
  | number
  | text
  | array
  | object
deriving DecidableEq

/-- The kind of the value whose text begins with a character. -/
def kindOf? : List Char → Option Kind
  | [] => none
  | first :: _ =>
    if first = 'n' then some .null
    else if first = 't' ∨ first = 'f' then some .boolean
    else if isNumeral first then some .number
    else if first = '"' then some .text
    else if first = '[' then some .array
    else if first = '\x7b' then some .object
    else none

namespace Value

def kind : Value → Kind
  | .null => .null
  | .boolean _ => .boolean
  | .number _ => .number
  | .text _ => .text
  | .array _ => .array
  | .object _ => .object

mutual

/-- Values without floating-point numbers. -/
def Exact : Value → Prop
  | .null => True
  | .boolean _ => True
  | .number (.integer _) => True
  | .number (.float _) => False
  | .text _ => True
  | .array items => ExactItems items
  | .object entries => ExactEntries entries

def ExactItems : List Value → Prop
  | [] => True
  | item :: rest => Exact item ∧ ExactItems rest

def ExactEntries : List (String × Value) → Prop
  | [] => True
  | (_, value) :: rest => Exact value ∧ ExactEntries rest

end

theorem ExactItems.of_mem {item : Value} {items : List Value} (exact : ExactItems items)
    (member : item ∈ items) : item.Exact := by
  induction items with
  | nil => cases member
  | cons other rest inductionHypothesis =>
    rw [ExactItems] at exact
    rcases List.mem_cons.mp member with rfl | member
    · exact exact.1
    · exact inductionHypothesis exact.2 member

theorem ExactEntries.of_mem {entry : String × Value} {entries : List (String × Value)}
    (exact : ExactEntries entries) (member : entry ∈ entries) : entry.2.Exact := by
  induction entries with
  | nil => cases member
  | cons other rest inductionHypothesis =>
    rw [ExactEntries] at exact
    rcases List.mem_cons.mp member with rfl | member
    · exact exact.1
    · exact inductionHypothesis exact.2 member

/-- The characters of the compact form. -/
def characters (value : Value) : List Char := value.compact.toList

/-- The characters of an entry of an object. -/
def entryCharacters (entry : String × Value) : List Char :=
  (stringText entry.1).toList ++ ':' :: entry.2.characters

theorem toList_compactItems (items : List Value) :
    (compactItems items).toList = separated characters items := by
  induction items with
  | nil => rfl
  | cons item rest inductionHypothesis =>
    cases rest with
    | nil => simp [compactItems, separated, further, characters]
    | cons other rest =>
      rw [compactItems, String.toList_append, String.toList_append, inductionHypothesis]
      · simp [separated, further, characters]
      · simp

theorem toList_compactEntries (entries : List (String × Value)) :
    (compactEntries entries).toList = separated entryCharacters entries := by
  induction entries with
  | nil => rfl
  | cons entry rest inductionHypothesis =>
    cases rest with
    | nil => simp [compactEntries, separated, further, entryCharacters, characters]
    | cons other rest =>
      rw [compactEntries, String.toList_append, inductionHypothesis]
      · simp [separated, further, entryCharacters, characters]
      · simp

theorem characters_array (items : List Value) :
    (Value.array items).characters = '[' :: separated characters items ++ [']'] := by
  simp [characters, compact, toList_compactItems]

theorem characters_object (entries : List (String × Value)) :
    (Value.object entries).characters =
      '\x7b' :: separated entryCharacters entries ++ ['\x7d'] := by
  simp [characters, compact, toList_compactEntries]

/-- The first character tells the kind of a value. -/
theorem kindOf?_characters {value : Value} (exact : value.Exact) (rest : List Char) :
    kindOf? (value.characters ++ rest) = some value.kind := by
  cases value with
  | null => rfl
  | boolean value => cases value <;> rfl
  | number value =>
    cases value with
    | float value => cases exact
    | integer value =>
      show kindOf? ((toString value).toList ++ rest) = some .number
      cases digits : (toString value).toList with
      | nil => exact absurd digits (toList_toString_ne_nil value)
      | cons first others =>
        have numeral : isNumeral first = true :=
          isNumeral_of_mem_toString (digits ▸ List.mem_cons_self)
        have letter : first ≠ 'n' ∧ first ≠ 't' ∧ first ≠ 'f' := by
          refine ⟨?_, ?_, ?_⟩ <;> rintro rfl <;> exact absurd numeral (by decide)
        simp [kindOf?, letter, numeral]
  | text value => simp [characters, compact, toList_stringText, kindOf?, kind, isNumeral]
  | array items => simp [characters_array, kindOf?, kind, isNumeral]
  | object entries => simp [characters_object, kindOf?, kind, isNumeral]

/-- A value is told from every other value by its compact text. -/
def Determined (value : Value) : Prop :=
  ∀ other : Value, other.Exact → Told characters value other

theorem kind_eq {value other : Value} (exact : value.Exact) (otherExact : other.Exact)
    {rest more : List Char} (same : value.characters ++ rest = other.characters ++ more) :
    value.kind = other.kind := by
  have kinds := congrArg kindOf? same
  rw [kindOf?_characters exact, kindOf?_characters otherExact] at kinds
  exact Option.some.inj kinds

theorem determined_null : Determined .null := by
  intro other exact rest more _ _ same
  have kinds := kind_eq (show Exact .null from trivial) exact same
  cases other <;> cases kinds
  exact ⟨rfl, List.append_cancel_left same⟩

theorem determined_boolean (value : Bool) : Determined (.boolean value) := by
  intro other exact rest more _ _ same
  have kinds := kind_eq (show Exact (.boolean value) from trivial) exact same
  cases other <;> cases kinds
  next found =>
  cases value <;> cases found
  · exact ⟨rfl, List.append_cancel_left same⟩
  · exact absurd (List.cons.inj same).1 (by decide)
  · exact absurd (List.cons.inj same).1 (by decide)
  · exact ⟨rfl, List.append_cancel_left same⟩

theorem determined_integer (value : Int) : Determined (.number (.integer value)) := by
  intro other exact rest more delimited ends same
  have kinds := kind_eq (show Exact (.number (.integer value)) from trivial) exact same
  cases other <;> cases kinds
  next found =>
  cases found with
  | float => cases exact
  | integer found =>
    obtain ⟨rfl, rests⟩ := toString_append_inj delimited ends same
    exact ⟨rfl, rests⟩

theorem determined_text (value : String) : Determined (.text value) := by
  intro other exact rest more _ _ same
  have kinds := kind_eq (show Exact (.text value) from trivial) exact same
  cases other <;> cases kinds
  obtain ⟨rfl, rests⟩ := stringText_append_inj same
  exact ⟨rfl, rests⟩

/-- No compact text begins with a bracket that closes a list. -/
theorem characters_ne_close {value : Value} (exact : value.Exact) {close : Char}
    (closes : ∀ rest, kindOf? (close :: rest) = none) (rest more : List Char) :
    value.characters ++ rest ≠ close :: more := by
  intro same
  have kinds := congrArg kindOf? same
  rw [kindOf?_characters exact, closes] at kinds
  cases kinds

theorem determined_array {items : List Value} (exact : ExactItems items)
    (each : ∀ item ∈ items, Determined item) : Determined (.array items) := by
  intro other otherExact rest more _ _ same
  have kinds := kind_eq (show Exact (.array items) from exact) otherExact same
  cases other <;> cases kinds
  next others =>
  rw [characters_array, characters_array, List.append_assoc, List.append_assoc] at same
  have closes : Delimited [']'] := by simp [Delimited]
  obtain ⟨rfl, rests⟩ := separated_append_inj closes (by decide)
    (fun item member other present => each item member other (otherExact.of_mem present))
    (fun one member => characters_ne_close
      (member.elim exact.of_mem otherExact.of_mem) fun _ => rfl)
    (List.cons.inj same).2
  exact ⟨rfl, rests⟩

/-- Entries are told apart if their values are. -/
theorem told_entry {entry other : String × Value} (determined : Determined entry.2)
    (exact : other.2.Exact) : Told entryCharacters entry other := by
  intro rest more delimited ends same
  simp only [entryCharacters, List.append_assoc, List.cons_append] at same
  obtain ⟨keys, left⟩ := stringText_append_inj same
  obtain ⟨values, rests⟩ := determined other.2 exact delimited ends (List.cons.inj left).2
  exact ⟨Prod.ext keys values, rests⟩

theorem determined_object {entries : List (String × Value)} (exact : ExactEntries entries)
    (each : ∀ entry ∈ entries, Determined entry.2) : Determined (.object entries) := by
  intro other otherExact rest more _ _ same
  have kinds := kind_eq (show Exact (.object entries) from exact) otherExact same
  cases other <;> cases kinds
  next others =>
  rw [characters_object, characters_object, List.append_assoc, List.append_assoc] at same
  have closes : Delimited ['\x7d'] := by simp [Delimited]
  obtain ⟨rfl, rests⟩ := separated_append_inj closes (by decide)
    (fun entry member other present => told_entry (each entry member)
      (otherExact.of_mem present))
    (fun one _ rest more opens => by simp [entryCharacters, toList_stringText] at opens)
    (List.cons.inj same).2
  exact ⟨rfl, rests⟩

mutual

/-- By induction on the value, with one lemma for each kind. -/
theorem Exact.determined : ∀ {value : Value}, value.Exact → Determined value
  | .null, _ => determined_null
  | .boolean value, _ => determined_boolean value
  | .number (.integer value), _ => determined_integer value
  | .text value, _ => determined_text value
  | .array _, exact => determined_array exact (ExactItems.determined exact)
  | .object _, exact => determined_object exact (ExactEntries.determined exact)

theorem ExactItems.determined : ∀ {items : List Value}, ExactItems items →
    ∀ item ∈ items, Determined item
  | [], _ => List.forall_mem_nil _
  | _ :: _, exact => List.forall_mem_cons.mpr ⟨exact.1.determined, exact.2.determined⟩

theorem ExactEntries.determined : ∀ {entries : List (String × Value)}, ExactEntries entries →
    ∀ entry ∈ entries, Determined entry.2
  | [], _ => List.forall_mem_nil _
  | (_, _) :: _, exact => List.forall_mem_cons.mpr ⟨exact.1.determined, exact.2.determined⟩

end

/-- Values without floating-point numbers that have one compact text are one value. -/
theorem Exact.compact_inj {first second : Value} (exact : first.Exact)
    (otherExact : second.Exact) (same : first.compact = second.compact) : first = second := by
  have nothing : Delimited [] := by simp [Delimited]
  refine (exact.determined second otherExact nothing nothing ?_).1
  simp only [characters, same]

end Value

end Vetting.Json
