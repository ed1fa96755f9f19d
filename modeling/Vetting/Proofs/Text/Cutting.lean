import Mathlib.Data.List.Basic
import Mathlib.Data.List.TakeWhile
import Vetting.Text.Blank

/-!
Contract: what is known about texts that are cut at characters or trimmed.

Owns:
- the pieces of a text that is put together, and the text that pieces were cut from;
- the characters before and after the first occurrence of a character;
- which texts are left as they are when white space is removed.

Does not own: what the pieces mean.
-/

namespace Vetting.Text

variable {separator : Char} {text piece : List Char}

/-! ### Cutting at every occurrence -/

theorem cutAt_of_not_mem (clean : separator ∉ piece) : cutAt separator piece = [piece] := by
  induction piece with
  | nil => rfl
  | cons character rest inductionHypothesis =>
    rw [List.mem_cons, not_or] at clean
    rw [cutAt, if_neg (Ne.symm clean.1), inductionHypothesis clean.2]

theorem cutAt_ne_nil (separator : Char) (text : List Char) : cutAt separator text ≠ [] := by
  cases text with
  | nil => simp [cutAt]
  | cons character rest =>
    rw [cutAt]
    split
    · simp
    · split <;> simp

/-- A text with a separator in it has the pieces before it and the pieces after it. -/
theorem cutAt_append (separator : Char) (before after : List Char) :
    cutAt separator (before ++ separator :: after) =
      cutAt separator before ++ cutAt separator after := by
  induction before with
  | nil => simp [cutAt]
  | cons character rest inductionHypothesis =>
    rw [List.cons_append, cutAt, cutAt, inductionHypothesis]
    split
    · rfl
    · cases pieces : cutAt separator rest with
      | nil => exact absurd pieces (cutAt_ne_nil separator rest)
      | cons first others => rfl

/-- Parts with a separator between them are the pieces again, if none has it in it. -/
theorem cutAt_joined {between : String} (isBetween : between.toList = [separator])
    {parts : List String} (nonempty : parts ≠ []) (clean : ∀ part ∈ parts, separator ∉ part.toList) :
    cutAt separator (joined between parts).toList = parts.map String.toList := by
  induction parts with
  | nil => exact absurd rfl nonempty
  | cons first rest inductionHypothesis =>
    have cleanHere := clean first List.mem_cons_self
    cases rest with
    | nil => exact cutAt_of_not_mem cleanHere
    | cons second others =>
      have later := inductionHypothesis (List.cons_ne_nil _ _)
        fun part member => clean part (List.mem_cons_of_mem _ member)
      have isText : (joined between (first :: second :: others)).toList =
          first.toList ++ separator :: (joined between (second :: others)).toList := by
        simp [joined, isBetween]
      rw [isText, cutAt_append, cutAt_of_not_mem cleanHere, later]
      rfl

theorem not_mem_of_mem_cutAt (member : piece ∈ cutAt separator text) : separator ∉ piece := by
  induction text generalizing piece with
  | nil => simp_all [cutAt]
  | cons character rest inductionHypothesis =>
    rw [cutAt] at member
    split at member
    · rcases List.mem_cons.mp member with rfl | later
      · simp
      · exact inductionHypothesis later
    · rename_i different
      cases pieces : cutAt separator rest with
      | nil => exact absurd pieces (cutAt_ne_nil separator rest)
      | cons first others =>
        rw [pieces] at member inductionHypothesis
        rcases List.mem_cons.mp member with rfl | later
        · have clean := inductionHypothesis (List.mem_cons_self (a := first) (l := others))
          simp [Ne.symm different, clean]
        · exact inductionHypothesis (List.mem_cons_of_mem _ later)

theorem not_mem_of_mem_pieces {text part : String} (member : part ∈ pieces separator text) :
    separator ∉ part.toList := by
  obtain ⟨piece, isPiece, rfl⟩ := List.mem_map.mp member
  rw [String.toList_ofList]
  exact not_mem_of_mem_cutAt isPiece

theorem cutAt_cons_of_ne {character : Char} (different : character ≠ separator) (rest : List Char) :
    ∃ piece pieces, cutAt separator rest = piece :: pieces ∧
      cutAt separator (character :: rest) = (character :: piece) :: pieces := by
  rw [cutAt, if_neg different]
  cases pieces : cutAt separator rest with
  | nil => exact absurd pieces (cutAt_ne_nil separator rest)
  | cons piece others => exact ⟨piece, others, rfl, rfl⟩

/-- Apart from the separator, the characters of a text are those of its pieces. -/
theorem mem_iff_of_ne {character : Char} (different : character ≠ separator) :
    character ∈ text ↔ ∃ piece ∈ cutAt separator text, character ∈ piece := by
  induction text with
  | nil => simp [cutAt]
  | cons first rest inductionHypothesis =>
    by_cases isSeparator : first = separator
    · subst isSeparator
      simp [cutAt, different, inductionHypothesis]
    · obtain ⟨piece, pieces, isRest, isText⟩ := cutAt_cons_of_ne isSeparator rest
      rw [isText, List.mem_cons, inductionHypothesis, isRest]
      simp [or_assoc]

/-! ### Texts put together from pieces -/

theorem joined_cons (between first : String) {rest : List String} (nonempty : rest ≠ []) :
    joined between (first :: rest) = first ++ between ++ joined between rest := by
  cases rest with
  | nil => exact absurd rfl nonempty
  | cons second others => rfl

theorem joined_append (between : String) {first second : List String} (nonempty : first ≠ [])
    (goesOn : second ≠ []) :
    joined between (first ++ second) = joined between first ++ between ++ joined between second := by
  induction first with
  | nil => exact absurd rfl nonempty
  | cons part rest inductionHypothesis =>
    cases rest with
    | nil => exact joined_cons between part goesOn
    | cons other others =>
      rw [List.cons_append, joined_cons between part (by simp),
        inductionHypothesis (List.cons_ne_nil _ _), joined_cons between part (List.cons_ne_nil _ _)]
      simp only [String.append_assoc]

/-- A text is put together from its pieces. -/
theorem joined_pieces {between : String} (isBetween : between.toList = [separator]) (text : String) :
    joined between (pieces separator text) = text := by
  have isText : ∀ characters : List Char,
      joined between ((cutAt separator characters).map String.ofList) = String.ofList characters := by
    intro characters
    induction characters with
    | nil => rfl
    | cons character rest inductionHypothesis =>
      have nonempty := cutAt_ne_nil separator rest
      by_cases isSeparator : character = separator
      · subst isSeparator
        rw [cutAt, if_pos rfl, List.map_cons, joined_cons _ _ (by simpa using nonempty),
          inductionHypothesis]
        apply String.toList_inj.mp
        simp [isBetween]
      · obtain ⟨piece, pieces, isRest, isText⟩ := cutAt_cons_of_ne isSeparator rest
        rw [isRest] at inductionHypothesis
        rw [isText]
        apply String.toList_inj.mp
        have isRest := congrArg String.toList inductionHypothesis
        cases pieces with
        | nil => simpa [joined] using isRest
        | cons other others => simpa [joined] using isRest
  rw [pieces, isText, String.ofList_toList]

theorem pieces_joined {between : String} (isBetween : between.toList = [separator])
    {parts : List String} (nonempty : parts ≠ []) (clean : ∀ part ∈ parts, separator ∉ part.toList) :
    pieces separator (joined between parts) = parts := by
  rw [pieces, cutAt_joined isBetween nonempty clean, List.map_map]
  simp

/-! ### Cutting at the first occurrence -/

theorem cutOnce?_append (clean : separator ∉ piece) (after : List Char) :
    cutOnce? separator (piece ++ separator :: after) = some (piece, after) := by
  induction piece with
  | nil => simp [cutOnce?]
  | cons character rest inductionHypothesis =>
    rw [List.mem_cons, not_or] at clean
    rw [List.cons_append, cutOnce?, if_neg (Ne.symm clean.1), inductionHypothesis clean.2]
    rfl

theorem cutOnce?_eq_some_iff {before after : List Char} :
    cutOnce? separator text = some (before, after) ↔
      separator ∉ before ∧ text = before ++ separator :: after := by
  constructor
  · intro cut
    induction text generalizing before with
    | nil => cases cut
    | cons character rest inductionHypothesis =>
      rw [cutOnce?] at cut
      split at cut
      · rename_i same
        cases cut
        simp [same]
      · rename_i different
        obtain ⟨⟨inner, later⟩, found, isCut⟩ := Option.map_eq_some_iff.mp cut
        cases isCut
        obtain ⟨clean, isRest⟩ := inductionHypothesis found
        simp [Ne.symm different, clean, isRest]
  · rintro ⟨clean, rfl⟩
    exact cutOnce?_append clean after

theorem cutOnce?_eq_none_iff : cutOnce? separator text = none ↔ separator ∉ text := by
  induction text with
  | nil => simp [cutOnce?]
  | cons character rest inductionHypothesis =>
    rw [cutOnce?]
    split
    · rename_i same
      simp [same]
    · rename_i different
      simp [inductionHypothesis, Ne.symm different]

/-! ### What follows the beginning of a text -/

theorem after?_append (beginning rest : List Char) :
    after? beginning (beginning ++ rest) = some rest := by
  induction beginning with
  | nil => rfl
  | cons character others inductionHypothesis =>
    rw [List.cons_append, after?, if_pos rfl, inductionHypothesis]

/-! ### Removing white space -/

/-- A text without white space at its ends. -/
structure Solid (text : List Char) : Prop where
  starts : ∀ character ∈ text.head?, isBlank character = false
  ends : ∀ character ∈ text.getLast?, isBlank character = false

theorem dropWhile_isBlank_of_starts (starts : ∀ character ∈ text.head?, isBlank character = false) :
    text.dropWhile isBlank = text := by
  cases text with
  | nil => rfl
  | cons character rest => exact List.dropWhile_cons_of_neg (by simp [starts character rfl])

theorem Solid.trimBlanks_eq (solid : Solid text) : trimBlanks text = text := by
  have ends : ∀ character ∈ text.reverse.head?, isBlank character = false := by
    rw [List.head?_reverse]
    exact solid.ends
  rw [trimBlanks, dropWhile_isBlank_of_starts solid.starts, dropWhile_isBlank_of_starts ends,
    List.reverse_reverse]

theorem not_isBlank_of_head?_dropWhile (text : List Char) :
    ∀ character ∈ (text.dropWhile isBlank).head?, isBlank character = false := by
  intro character isFirst
  have kept := List.head?_dropWhile_not isBlank text
  simp_all

/-- What is left when white space has been removed has none at its ends. -/
theorem solid_trimBlanks (text : List Char) : Solid (trimBlanks text) where
  starts := by
    intro character isFirst
    have isPrefix : trimBlanks text <+: text.dropWhile isBlank := by
      rw [← List.reverse_suffix, trimBlanks, List.reverse_reverse]
      exact List.dropWhile_suffix isBlank
    obtain ⟨removed, isWhole⟩ := isPrefix
    refine not_isBlank_of_head?_dropWhile text character ?_
    rw [← isWhole]
    exact List.mem_head?_append_of_mem_head? isFirst
  ends := by
    intro character isLast
    rw [trimBlanks, List.getLast?_reverse] at isLast
    exact not_isBlank_of_head?_dropWhile _ character isLast

end Vetting.Text
