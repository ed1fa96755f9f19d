import Mathlib.Algebra.Ring.Nat
import Vetting.Proofs.Document.Keys

/-!
Contract: which paths there are, and where they lead.

Owns:
- the grammar of paths, apart from how they are taken to pieces, and descents one step at a time;
- that the paths with steps are those of the grammar, and that a path leads where its steps lead;
- that a group in brackets and a number after a dot are the same.

Does not own: which paths are made of keys alone (`Vetting.Proofs.Document.Keys`).

Only the text without white space at its ends is a path.
-/

namespace Vetting.Document

open Json (Value)

/-! ### The grammar of paths -/

/-- A text that reads as an unsigned integer below `2 ^ 64`: decimal digits, after an optional plus
sign. -/
def Numeral (text : List Char) (number : Nat) : Prop :=
  ∃ digits : List Char, (text = digits ∨ text = '+' :: digits) ∧ digits ≠ [] ∧
    (∀ digit ∈ digits, digit.isDigit = true) ∧ Nat.ofDigitChars 10 digits 0 = number ∧
    number < 2 ^ 64

/-- Groups in brackets, each around a numeral and perhaps white space, and their positions. -/
inductive Groups : List Char → List Nat → Prop
  | empty : Groups [] []
  | more {inner rest : List Char} {position : Nat} {positions : List Nat} (closed : ']' ∉ inner)
      (reads : Numeral (Text.trimBlanks inner) position) (further : Groups rest positions) :
    Groups ('[' :: (inner ++ ']' :: rest)) (position :: positions)

/-- What stands before the groups: nothing, an index, or else a key. -/
inductive Head : List Char → List Step → Prop
  | empty : Head [] []
  | index {text : List Char} {position : Nat} (reads : Numeral text position) :
    Head text [.index position]
  | key {text : List Char} (nonempty : text ≠ []) (noNumeral : ∀ number, ¬ Numeral text number) :
    Head text [.key (String.ofList text)]

/-- A part between dots is a head and groups, not both empty. -/
inductive Part : List Char → List Step → Prop
  | intro {head groups : List Char} {steps : List Step} {positions : List Nat}
      (noBracket : '[' ∉ head) (isHead : Head head steps) (isGroups : Groups groups positions)
      (nonempty : head ++ groups ≠ []) :
    Part (head ++ groups) (steps ++ positions.map .index)

/-- A path is one part or several with dots between them. -/
inductive Spells : List Char → List Step → Prop
  | last {part : List Char} {steps : List Step} (noDot : '.' ∉ part) (isPart : Part part steps) :
    Spells part steps
  | more {part rest : List Char} {steps others : List Step} (noDot : '.' ∉ part)
      (isPart : Part part steps) (further : Spells rest others) :
    Spells (part ++ '.' :: rest) (steps ++ others)

/-! ### Numerals -/

theorem Numeral.lt {text : List Char} {number : Nat} (reads : Numeral text number) :
    number < Width.count 64 := by
  obtain ⟨_, _, _, _, _, small⟩ := reads
  exact small

/-- Without a sign, a numeral is its digits. -/
theorem boundedValue?_eq_some_iff {digits : List Char} {number : Nat} :
    (if digits.isEmpty then none else match digitsValue? 0 digits with
      | some value => if value < Width.count 64 then some value else none
      | none => none) = some number ↔
    digits ≠ [] ∧ (∀ digit ∈ digits, digit.isDigit = true) ∧
      Nat.ofDigitChars 10 digits 0 = number ∧ number < 2 ^ 64 := by
  have isWidth : Width.count 64 = 2 ^ 64 := rfl
  rw [← and_assoc (a := ∀ digit ∈ digits, digit.isDigit = true), ← digitsValue?_eq_some_iff]
  cases digits with
  | nil => simp
  | cons digit rest =>
    cases digitsValue? 0 (digit :: rest) with
    | none => simp
    | some value =>
      simp only [List.isEmpty_cons, Bool.false_eq_true, if_false, isWidth]
      split
      · simp
        omega
      · simp
        omega

theorem unsigned?_eq_some_iff {text : List Char} {number : Nat} :
    unsigned? text = some number ↔ Numeral text number := by
  by_cases signed : text.head? = some '+'
  · obtain ⟨rest, rfl⟩ := List.head?_eq_some_iff.mp signed
    refine boundedValue?_eq_some_iff.trans ⟨fun denotes => ⟨rest, .inr rfl, denotes⟩, ?_⟩
    rintro ⟨digits, isText | isText, denotes⟩
    · have isDigit := denotes.2.1 '+' (by simp [← isText])
      simp at isDigit
    · cases isText
      exact denotes
  · have unsigned : unsigned? text = if text.isEmpty then none else match digitsValue? 0 text with
        | some value => if value < Width.count 64 then some value else none
        | none => none := by
      unfold unsigned?
      split
      · exact absurd rfl signed
      · rfl
    rw [unsigned, boundedValue?_eq_some_iff]
    refine ⟨fun denotes => ⟨text, .inl rfl, denotes⟩, ?_⟩
    rintro ⟨digits, isText | isText, denotes⟩
    · rw [isText]
      exact denotes
    · exact absurd (congrArg List.head? isText) signed

/-! ### Parts -/

/-- More fuel than characters changes nothing. -/
theorem groups?_of_length_le {fuel : Nat} {text : List Char} (enough : text.length ≤ fuel) :
    groups? fuel text = groups? text.length text := by
  suffices alike : ∀ (count other : Nat) (text : List Char), text.length ≤ count →
      text.length ≤ other → groups? count text = groups? other text from
    alike fuel text.length text enough (Nat.le_refl _)
  intro count
  induction count with
  | zero =>
    intro other text short _
    obtain rfl := List.length_eq_zero_iff.mp (Nat.le_zero.mp short)
    rw [groups?, groups?]
  | succ count inductionHypothesis =>
    intro other text short enough
    cases text with
    | nil => rw [groups?, groups?]
    | cons character rest =>
      obtain ⟨other, rfl⟩ := Nat.exists_eq_succ_of_ne_zero (by
        simp only [List.length_cons] at enough
        omega : other ≠ 0)
      rw [groups?, groups?]
      cases cut : Text.cutOnce? ']' rest with
      | none => rfl
      | some pieces =>
        obtain ⟨inner, after⟩ := pieces
        have isRest := (Text.cutOnce?_eq_some_iff.mp cut).2
        have lengths := congrArg List.length isRest
        simp only [List.length_cons, List.length_append] at short enough lengths
        simp only [inductionHypothesis other after (by omega) (by omega)]

/-- A group in front adds its position. -/
theorem groups?_group {inner : List Char} {position : Nat} (closed : ']' ∉ inner)
    (reads : Numeral (Text.trimBlanks inner) position) (rest : List Char) {fuel : Nat}
    (enough : (inner ++ ']' :: rest).length ≤ fuel) :
    groups? (fuel + 1) ('[' :: (inner ++ ']' :: rest)) =
      (groups? rest.length rest).map (.index position :: ·) := by
  have short : rest.length ≤ fuel := by
    simp only [List.length_append, List.length_cons] at enough
    omega
  simp only [groups?, if_true, Text.cutOnce?_append closed, unsigned?_eq_some_iff.mpr reads,
    groups?_of_length_le short]

theorem groups?_eq_some_iff {text : List Char} {steps : List Step} :
    groups? text.length text = some steps ↔
      ∃ positions, Groups text positions ∧ steps = positions.map .index := by
  constructor
  · suffices parsed : ∀ (fuel : Nat) (text : List Char) (steps : List Step),
        groups? fuel text = some steps →
        ∃ positions, Groups text positions ∧ steps = positions.map .index from
      parsed text.length text steps
    intro fuel
    induction fuel with
    | zero =>
      intro text steps found
      cases text with
      | nil =>
        cases found
        exact ⟨[], .empty, rfl⟩
      | cons character rest => cases found
    | succ fuel inductionHypothesis =>
      intro text steps found
      cases text with
      | nil =>
        cases found
        exact ⟨[], .empty, rfl⟩
      | cons character rest =>
        rw [groups?] at found
        split at found
        · rename_i opens
          subst opens
          split at found
          · cases found
          · rename_i inner after cut
            split at found
            · cases found
            · rename_i position reads
              obtain ⟨closed, isRest⟩ := Text.cutOnce?_eq_some_iff.mp cut
              obtain ⟨others, isOthers, isSteps⟩ := Option.map_eq_some_iff.mp found
              obtain ⟨positions, further, arePositions⟩ := inductionHypothesis after others isOthers
              subst isRest isSteps arePositions
              exact ⟨position :: positions, .more closed (unsigned?_eq_some_iff.mp reads) further,
                rfl⟩
        · cases found
  · rintro ⟨positions, isGroups, rfl⟩
    induction isGroups with
    | empty => rfl
    | more closed reads further inductionHypothesis =>
      rw [List.length_cons, groups?_group closed reads _ (Nat.le_refl _), inductionHypothesis]
      rfl

/-- Groups begin with a bracket, if there are any. -/
theorem Groups.head? {text : List Char} {positions : List Nat} (isGroups : Groups text positions) :
    text = [] ∨ text.head? = some '[' := by
  cases isGroups with
  | empty => exact .inl rfl
  | more closed reads further => exact .inr rfl

/-- A part is taken to pieces where the first bracket opens. -/
theorem part?_append {head rest : List Char} (noBracket : '[' ∉ head)
    (opens : rest = [] ∨ rest.head? = some '[') (nonempty : head ++ rest ≠ []) :
    part? (head ++ rest) = (groups? rest.length rest).map fun groups =>
      if head.isEmpty then groups else headStep head :: groups := by
  have outside : ∀ character ∈ head, decide (character ≠ '[') = true := by
    intro character member
    simpa using ne_of_mem_of_not_mem member noBracket
  have isHead : (head ++ rest).takeWhile (· ≠ '[') = head := by
    rw [List.takeWhile_append_of_pos outside]
    rcases opens with rfl | opens
    · simp
    · obtain ⟨after, rfl⟩ := List.head?_eq_some_iff.mp opens
      simp
  have isRest : (head ++ rest).dropWhile (· ≠ '[') = rest := by
    rw [List.dropWhile_append_of_pos outside]
    rcases opens with rfl | opens
    · simp
    · obtain ⟨after, rfl⟩ := List.head?_eq_some_iff.mp opens
      simp
  unfold part?
  simp only [isHead, isRest]
  split
  · rename_i empty
    exact absurd empty nonempty
  · rfl

theorem headStep_iff {head : List Char} (nonempty : head ≠ []) {steps : List Step} :
    Head head steps ↔ steps = [headStep head] := by
  unfold headStep
  cases reads : unsigned? head with
  | some position =>
    have isNumeral := unsigned?_eq_some_iff.mp reads
    constructor
    · intro isHead
      cases isHead with
      | empty => exact absurd rfl nonempty
      | index other =>
        rw [unsigned?_eq_some_iff.mpr other] at reads
        simpa using reads
      | key _ noNumeral => exact absurd isNumeral (noNumeral position)
    · rintro rfl
      exact .index isNumeral
  | none =>
    have noNumeral : ∀ number, ¬ Numeral head number := by
      intro number isNumeral
      rw [unsigned?_eq_some_iff.mpr isNumeral] at reads
      cases reads
    constructor
    · intro isHead
      cases isHead with
      | empty => exact absurd rfl nonempty
      | index other => exact absurd other (noNumeral _)
      | key => rfl
    · rintro rfl
      exact .key nonempty noNumeral

theorem part?_eq_some_iff {text : List Char} {steps : List Step} :
    part? text = some steps ↔ Part text steps := by
  constructor
  · intro found
    have isText : text.takeWhile (· ≠ '[') ++ text.dropWhile (· ≠ '[') = text :=
      List.takeWhile_append_dropWhile
    have noBracket : '[' ∉ text.takeWhile (· ≠ '[') := by
      intro member
      have kept := List.mem_takeWhile_imp member
      simp at kept
    have nonempty : text ≠ [] := by
      rintro rfl
      cases found
    have opens : text.dropWhile (· ≠ '[') = [] ∨ (text.dropWhile (· ≠ '[')).head? = some '[' := by
      have dropped := List.head?_dropWhile_not (· ≠ '[') text
      cases isFirst : (text.dropWhile (· ≠ '[')).head? with
      | none => exact .inl (List.head?_eq_none_iff.mp isFirst)
      | some first =>
        rw [isFirst] at dropped
        right
        simpa using dropped
    rw [← isText] at found nonempty ⊢
    rw [part?_append noBracket opens nonempty] at found
    obtain ⟨groups, isGroups, isSteps⟩ := Option.map_eq_some_iff.mp found
    obtain ⟨positions, spelled, rfl⟩ := groups?_eq_some_iff.mp isGroups
    generalize text.takeWhile (· ≠ '[') = head at *
    cases head with
    | nil =>
      rw [← isSteps]
      exact .intro noBracket .empty spelled nonempty
    | cons first others =>
      rw [← isSteps]
      exact .intro noBracket ((headStep_iff (List.cons_ne_nil _ _)).mpr rfl) spelled nonempty
  · rintro ⟨noBracket, isHead, isGroups, nonempty⟩
    rename_i head groups steps positions
    rw [part?_append noBracket isGroups.head? nonempty,
      groups?_eq_some_iff.mpr ⟨positions, isGroups, rfl⟩, Option.map_some]
    cases head with
    | nil =>
      cases isHead with
      | empty => rfl
      | index reads => cases unsigned?_eq_some_iff.mpr reads
      | key nonempty => exact absurd rfl nonempty
    | cons first others =>
      obtain rfl := (headStep_iff (List.cons_ne_nil _ _)).mp isHead
      rfl

/-! ### Paths -/

theorem parts?_cons_eq_some_iff {part : List Char} {rest : List (List Char)} {steps : List Step} :
    parts? (part :: rest) = some steps ↔
      ∃ first others, Part part first ∧ parts? rest = some others ∧ steps = first ++ others := by
  rw [parts?]
  constructor
  · intro found
    split at found
    · rename_i first others isPart isRest
      cases found
      exact ⟨first, others, part?_eq_some_iff.mp isPart, isRest, rfl⟩
    · cases found
  · rintro ⟨first, others, isPart, isRest, rfl⟩
    rw [part?_eq_some_iff.mpr isPart, isRest]

/-- The paths that have steps are those of the grammar, with the steps that it gives them. -/
theorem steps?_eq_some_iff {path : List Char} {steps : List Step} :
    steps? path = some steps ↔ Spells path steps := by
  unfold steps?
  constructor
  · -- from one dot to the next
    induction length : path.length using Nat.strongRecOn generalizing path steps with
    | ind size inductionHypothesis =>
      intro found
      cases cut : Text.cutOnce? '.' path with
      | none =>
        have noDot := Text.cutOnce?_eq_none_iff.mp cut
        rw [Text.cutAt_of_not_mem noDot, parts?_cons_eq_some_iff] at found
        obtain ⟨first, others, isPart, isRest, rfl⟩ := found
        cases isRest
        rw [List.append_nil]
        exact .last noDot isPart
      | some pieces =>
        obtain ⟨part, rest⟩ := pieces
        obtain ⟨noDot, rfl⟩ := Text.cutOnce?_eq_some_iff.mp cut
        rw [Text.cutAt_append, Text.cutAt_of_not_mem noDot, List.singleton_append,
          parts?_cons_eq_some_iff] at found
        obtain ⟨first, others, isPart, isRest, rfl⟩ := found
        have shorter : rest.length < size := by
          rw [← length, List.length_append, List.length_cons]
          omega
        exact .more noDot isPart (inductionHypothesis rest.length shorter rfl isRest)
  · intro spells
    induction spells with
    | last noDot isPart =>
      rw [Text.cutAt_of_not_mem noDot, parts?_cons_eq_some_iff]
      exact ⟨_, [], isPart, rfl, (List.append_nil _).symm⟩
    | more noDot isPart further inductionHypothesis =>
      rw [Text.cutAt_append, Text.cutAt_of_not_mem noDot, List.singleton_append,
        parts?_cons_eq_some_iff]
      exact ⟨_, _, isPart, inductionHypothesis, rfl⟩

/-! ### Descents -/

/-- One step down: to an entry, to an item, or to the entry whose key is a number. -/
inductive Child : Value → Step → Value → Prop
  | entry {entries : List (String × Value)} {name : String} {value : Value}
      (found : Dictionary.lookup? name entries = some value) :
    Child (.object entries) (.key name) value
  | item {items : List Value} {position : Nat} {value : Value}
      (found : items[position]? = some value) : Child (.array items) (.index position) value
  | numbered {entries : List (String × Value)} {position : Nat} {value : Value}
      (found : Dictionary.lookup? (toString position) entries = some value) :
    Child (.object entries) (.index position) value

/-- Several steps down, one after the other. -/
inductive Descent : Value → List Step → Value → Prop
  | done {value : Value} : Descent value [] value
  | down {holder inner value : Value} {step : Step} {rest : List Step}
      (child : Child holder step inner) (further : Descent inner rest value) :
    Descent holder (step :: rest) value

/-- The empty path leads to the document, any other one along the steps that it spells. -/
inductive Leads (root value : Value) : List Char → Prop
  | whole (same : value = root) : Leads root value []
  | along {path : List Char} {steps : List Step} (spells : Spells path steps)
      (descent : Descent root steps value) : Leads root value path

theorem child?_eq_some_iff {step : Step} {holder value : Value} :
    child? step holder = some value ↔ Child holder step value := by
  constructor
  · intro found
    cases step with
    | key name =>
      cases holder with
      | object entries => exact .entry found
      | null | boolean | number | text | array => cases found
    | index position =>
      cases holder with
      | object entries => exact .numbered found
      | array items => exact .item found
      | null | boolean | number | text => cases found
  · intro isChild
    cases isChild with
    | entry found => exact found
    | item found => exact found
    | numbered found => exact found

theorem descend?_eq_some_iff {steps : List Step} {root value : Value} :
    descend? steps root = some value ↔ Descent root steps value := by
  induction steps generalizing root with
  | nil =>
    rw [descend?, Option.some.injEq]
    constructor
    · rintro rfl
      exact .done
    · intro descent
      cases descent
      rfl
  | cons step rest inductionHypothesis =>
    rw [descend?]
    constructor
    · intro found
      split at found
      · rename_i inner isChild
        exact .down (child?_eq_some_iff.mp isChild) (inductionHypothesis.mp found)
      · cases found
    · intro descent
      cases descent with
      | down child further =>
        rw [child?_eq_some_iff.mpr child]
        exact inductionHypothesis.mpr further

theorem not_spells_nil {steps : List Step} : ¬ Spells [] steps := by
  intro spells
  cases steps?_eq_some_iff.mpr spells

theorem resolve?_of_ne_nil {root : Value} {path : String}
    (nonempty : Text.trimBlanks path.toList ≠ []) :
    resolve? root path =
      (steps? (Text.trimBlanks path.toList)).bind fun steps => descend? steps root := by
  unfold resolve?
  split
  · rename_i empty
    exact absurd empty nonempty
  · cases steps? (Text.trimBlanks path.toList) <;> rfl

theorem resolve?_eq_some_iff {root value : Value} {path : String} :
    resolve? root path = some value ↔ Leads root value (Text.trimBlanks path.toList) := by
  unfold resolve?
  generalize Text.trimBlanks path.toList = trimmed
  split
  · constructor
    · intro same
      exact .whole (Option.some.inj same).symm
    · intro leads
      cases leads with
      | whole same => rw [same]
      | along spells descent => exact absurd spells not_spells_nil
  · rename_i nonempty
    constructor
    · intro found
      split at found
      · rename_i steps isSteps
        exact .along (steps?_eq_some_iff.mp isSteps) (descend?_eq_some_iff.mp found)
      · cases found
    · intro leads
      cases leads with
      | whole same => exact absurd rfl nonempty
      | along spells descent =>
        rw [steps?_eq_some_iff.mpr spells]
        exact descend?_eq_some_iff.mpr descent

/-! ### Groups and numbers after dots -/

/-- One path has a number after a dot where the other has a group that follows, in its part, a head
or another group. -/
inductive Dotted : List Char → List Char → Prop
  | intro {before head groups inner after : List Char} {earlier : List Nat} {position : Nat}
      (starts : before = [] ∨ before.getLast? = some '.')
      (noDot : '.' ∉ head ++ groups ++ inner) (noBracket : '[' ∉ head)
      (isGroups : Groups groups earlier) (nonempty : head ++ groups ≠ [])
      (closed : ']' ∉ inner) (reads : Numeral (Text.trimBlanks inner) position)
      (goesOn : after = [] ∨ after.head? = some '[' ∨ after.head? = some '.') :
    Dotted (before ++ (head ++ groups) ++ '[' :: (inner ++ ']' :: after))
      (before ++ (head ++ groups) ++ '.' :: ((toString position).toList ++ after))

theorem parts?_append (first second : List (List Char)) :
    parts? (first ++ second) =
      (parts? first).bind fun steps => (parts? second).map (steps ++ ·) := by
  induction first with
  | nil => simp [parts?]
  | cons part rest inductionHypothesis =>
    rw [List.cons_append, parts?, parts?, inductionHypothesis]
    cases part? part <;> cases parts? rest <;> cases parts? second <;> simp

/-- Before and after a dot are two paths. -/
theorem steps?_append (before after : List Char) :
    steps? (before ++ '.' :: after) =
      (steps? before).bind fun steps => (steps? after).map (steps ++ ·) := by
  unfold steps?
  rw [Text.cutAt_append, parts?_append]

theorem steps?_of_noDot {part : List Char} (noDot : '.' ∉ part) : steps? part = part? part := by
  rw [steps?, Text.cutAt_of_not_mem noDot, parts?, parts?]
  cases part? part <;> simp

/-- Groups in front add their positions. -/
theorem groups?_append {groups : List Char} {positions : List Nat}
    (isGroups : Groups groups positions) (rest : List Char) :
    groups? (groups ++ rest).length (groups ++ rest) =
      (groups? rest.length rest).map (positions.map Step.index ++ ·) := by
  induction isGroups with
  | empty => simp
  | more closed reads further inductionHypothesis =>
    rename_i inner later position positions
    have isText : '[' :: (inner ++ ']' :: later) ++ rest =
        '[' :: (inner ++ ']' :: (later ++ rest)) := by simp
    rw [isText, List.length_cons, groups?_group closed reads _ (Nat.le_refl _),
      inductionHypothesis, Option.map_map]
    rfl

/-- A group and a part of its own that is a number add the same step. -/
theorem part?_group {head groups inner after : List Char} {earlier : List Nat} {position : Nat}
    (noBracket : '[' ∉ head) (isGroups : Groups groups earlier) (nonempty : head ++ groups ≠ [])
    (closed : ']' ∉ inner) (reads : Numeral (Text.trimBlanks inner) position)
    (opens : after = [] ∨ after.head? = some '[') :
    part? (head ++ groups ++ '[' :: (inner ++ ']' :: after)) =
      (part? (head ++ groups)).bind fun steps =>
        (part? ((toString position).toList ++ after)).map (steps ++ ·) := by
  have digit : headStep (toString position).toList = .index position := by
    rw [headStep, unsigned?_toString reads.lt]
  have bare := plainKey_toString position
  have isNumber : part? ((toString position).toList ++ after) =
      (groups? after.length after).map (.index position :: ·) := by
    rw [part?_append bare.noBracket opens (List.append_ne_nil_of_left_ne_nil bare.nonempty _), digit]
    simp
  have opensGroup : groups ++ '[' :: (inner ++ ']' :: after) = [] ∨
      (groups ++ '[' :: (inner ++ ']' :: after)).head? = some '[' := by
    rcases isGroups.head? with rfl | isFirst
    · exact .inr rfl
    · exact .inr (List.mem_head?_append_of_mem_head? isFirst)
  rw [List.append_assoc, part?_append noBracket opensGroup (by simp), groups?_append isGroups,
    List.length_cons, groups?_group closed reads _ (Nat.le_refl _),
    part?_append noBracket isGroups.head? nonempty,
    groups?_eq_some_iff.mpr ⟨earlier, isGroups, rfl⟩, isNumber]
  cases head <;> cases groups? after.length after <;> simp

section Regrouping

variable {head groups inner after : List Char} {earlier : List Nat} {position : Nat}

/-- In a part of its own a number adds the same step as a group. -/
theorem steps?_group_of_noDot (noDot : '.' ∉ head ++ groups ++ inner) (noBracket : '[' ∉ head)
    (isGroups : Groups groups earlier) (nonempty : head ++ groups ≠ []) (closed : ']' ∉ inner)
    (reads : Numeral (Text.trimBlanks inner) position) (noDotAfter : '.' ∉ after)
    (opens : after = [] ∨ after.head? = some '[') :
    steps? (head ++ groups ++ '.' :: ((toString position).toList ++ after)) =
      steps? (head ++ groups ++ '[' :: (inner ++ ']' :: after)) := by
  rw [List.mem_append, not_or] at noDot
  have number : '.' ∉ (toString position).toList ++ after := by
    rw [List.mem_append, not_or]
    exact ⟨(plainKey_toString position).noDot, noDotAfter⟩
  have group : '.' ∉ head ++ groups ++ '[' :: (inner ++ ']' :: after) := by
    rw [List.mem_append, not_or]
    refine ⟨noDot.1, ?_⟩
    simp [noDot.2, noDotAfter]
  rw [steps?_append, steps?_of_noDot noDot.1, steps?_of_noDot number, steps?_of_noDot group,
    part?_group noBracket isGroups nonempty closed reads opens]

/-- The steps after the next dot are the same. -/
theorem steps?_group (noDot : '.' ∉ head ++ groups ++ inner) (noBracket : '[' ∉ head)
    (isGroups : Groups groups earlier) (nonempty : head ++ groups ≠ []) (closed : ']' ∉ inner)
    (reads : Numeral (Text.trimBlanks inner) position)
    (goesOn : after = [] ∨ after.head? = some '[' ∨ after.head? = some '.') :
    steps? (head ++ groups ++ '.' :: ((toString position).toList ++ after)) =
      steps? (head ++ groups ++ '[' :: (inner ++ ']' :: after)) := by
  have inPart : ∀ tail : List Char, '.' ∉ tail → (tail = [] ∨ tail.head? = some '[') →
      steps? (head ++ groups ++ '.' :: ((toString position).toList ++ tail)) =
        steps? (head ++ groups ++ '[' :: (inner ++ ']' :: tail)) := fun _ noDotTail opens =>
    steps?_group_of_noDot noDot noBracket isGroups nonempty closed reads noDotTail opens
  cases cut : Text.cutOnce? '.' after with
  | none =>
    have noDotAfter := Text.cutOnce?_eq_none_iff.mp cut
    have noDotFirst : after.head? ≠ some '.' := fun dot => noDotAfter (List.mem_of_mem_head? dot)
    exact inPart after noDotAfter (goesOn.imp_right fun either => either.resolve_right noDotFirst)
  | some pieces =>
    obtain ⟨tail, rest⟩ := pieces
    obtain ⟨noDotTail, rfl⟩ := Text.cutOnce?_eq_some_iff.mp cut
    have opens : tail = [] ∨ tail.head? = some '[' := by
      cases tail with
      | nil => exact .inl rfl
      | cons first others =>
        have noDotFirst : first ≠ '.' := fun dot => noDotTail (by simp [dot])
        simpa [noDotFirst] using goesOn
    have dotted : head ++ groups ++ '.' :: ((toString position).toList ++ (tail ++ '.' :: rest)) =
        head ++ groups ++ '.' :: ((toString position).toList ++ tail) ++ '.' :: rest := by simp
    have grouped : head ++ groups ++ '[' :: (inner ++ ']' :: (tail ++ '.' :: rest)) =
        head ++ groups ++ '[' :: (inner ++ ']' :: tail) ++ '.' :: rest := by simp
    rw [dotted, grouped, steps?_append _ rest, steps?_append _ rest, inPart tail noDotTail opens]

end Regrouping

namespace Dotted

variable {path dotted : List Char}

theorem steps?_eq (isDotted : Dotted path dotted) : steps? dotted = steps? path := by
  cases isDotted with
  | intro starts noDot noBracket isGroups nonempty closed reads goesOn =>
    rename_i before head groups inner after earlier position
    have inPath := steps?_group noDot noBracket isGroups nonempty closed reads goesOn
    rcases starts with rfl | dot
    · simpa using inPath
    · obtain ⟨prior, rfl⟩ := List.getLast?_eq_some_iff.mp dot
      have isPath : ∀ rest : List Char, prior ++ ['.'] ++ (head ++ groups) ++ rest =
          prior ++ '.' :: (head ++ groups ++ rest) := by simp
      rw [isPath, isPath, steps?_append prior, steps?_append prior, inPath]

theorem ne_nil (isDotted : Dotted path dotted) : path ≠ [] ∧ dotted ≠ [] := by
  cases isDotted
  simp

theorem solid (isDotted : Dotted path dotted) (solid : Text.Solid path) : Text.Solid dotted := by
  cases isDotted with
  | intro starts noDot noBracket isGroups nonempty closed reads goesOn =>
    rename_i before head groups inner after earlier position
    have isSome : before ++ (head ++ groups) ≠ [] := List.append_ne_nil_of_right_ne_nil _ nonempty
    have digits := plainKey_toString position
    constructor
    · have starts := solid.starts
      rwa [List.head?_append_of_ne_nil _ isSome] at starts ⊢
    · have ends := solid.ends
      rw [List.getLast?_append_of_ne_nil _ (List.cons_ne_nil _ _)] at ends ⊢
      by_cases empty : after = []
      · subst empty
        rw [List.append_nil, List.getLast?_cons_of_ne_nil digits.nonempty]
        exact digits.endsSolid
      · rw [List.getLast?_cons_of_ne_nil (List.append_ne_nil_of_right_ne_nil _ empty),
          List.getLast?_append_of_ne_nil _ empty]
        rwa [List.getLast?_cons_of_ne_nil (by simp), List.getLast?_append_of_ne_nil _ (by simp),
          List.getLast?_cons_of_ne_nil empty] at ends

end Dotted

/-- Paths are those of the grammar, with the steps that it gives them, and a path leads where its steps
lead; nothing else leads anywhere, the empty path apart.  A group and a number after a dot lead to the
same. -/
theorem paths_of_grammar (path : String) :
    (∀ steps, steps? (Text.trimBlanks path.toList) = some steps ↔
      Spells (Text.trimBlanks path.toList) steps) ∧
    (∀ root value, resolve? root path = some value ↔
      Leads root value (Text.trimBlanks path.toList)) ∧
    ∀ dotted, Dotted (Text.trimBlanks path.toList) dotted →
      ∀ root, resolve? root (String.ofList dotted) = resolve? root path := by
  refine ⟨fun steps => steps?_eq_some_iff, fun root value => resolve?_eq_some_iff, ?_⟩
  intro dotted isDotted root
  have isTrimmed : Text.trimBlanks (String.ofList dotted).toList = dotted := by
    rw [String.toList_ofList]
    exact (isDotted.solid (Text.solid_trimBlanks _)).trimBlanks_eq
  have nonempty := isDotted.ne_nil
  rw [resolve?_of_ne_nil nonempty.1, resolve?_of_ne_nil (by rw [isTrimmed]; exact nonempty.2),
    isTrimmed, isDotted.steps?_eq]

end Vetting.Document

namespace Vetting.Example

open Document Json

/-- A document with a table of two rows. -/
def table : Value := .object [("rows", .array [.null, .object [("id", .text "second")]])]

theorem dotted_rows : Dotted "rows[ +1 ].id".toList "rows.1.id".toList := by
  have reads : Numeral (Text.trimBlanks [' ', '+', '1', ' ']) 1 :=
    unsigned?_eq_some_iff.mp (by decide)
  exact @Dotted.intro [] ['r', 'o', 'w', 's'] [] [' ', '+', '1', ' '] ['.', 'i', 'd'] [] 1 (.inl rfl)
    (by decide) (by decide) .empty (by decide) (by decide) reads (.inr (.inr rfl))

/-- A path with a group in it, the same path with a number after a dot, and where both lead. -/
theorem resolve?_rows : Dotted (Text.trimBlanks " rows[ +1 ].id".toList) "rows.1.id".toList ∧
    steps? "rows[ +1 ].id".toList = some [.key "rows", .index 1, .key "id"] ∧
    Leads table (.text "second") "rows[ +1 ].id".toList ∧
    resolve? table "rows.1.id" = resolve? table " rows[ +1 ].id" := by
  have isPath : Text.trimBlanks " rows[ +1 ].id".toList = "rows[ +1 ].id".toList := by decide
  have grammar := paths_of_grammar " rows[ +1 ].id"
  rw [isPath] at grammar
  refine ⟨by rw [isPath]; exact dotted_rows, by decide, ?_, grammar.2.2 _ dotted_rows table⟩
  exact (grammar.2.1 table (.text "second")).mp rfl

end Vetting.Example
