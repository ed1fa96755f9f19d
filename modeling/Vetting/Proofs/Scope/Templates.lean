import Mathlib.Data.List.Infix
import Vetting.Scope.Placeholder

/-!
Contract: what becomes of a template that is put together from pieces.

Owns:
- literal text and placeholders as the pieces of a template;
- that a template is filled piece by piece, and what is inserted is not read again;
- that a template none of whose placeholders is known stays as it is.

Does not own: how a value is shown.

Two texts side by side can make two braces where neither had them.  A piece is proper if this cannot
happen to it: its text has no two braces side by side that would end it, and no brace at its end.
-/

namespace Vetting.Scope

/-! ### Pieces -/

/-- A piece of a template. -/
inductive Piece where
  | literal (text : String)
  | placeholder (body : String)
deriving DecidableEq, Repr

/-- A text in which a mark never stands twice in a row, not even if the mark follows it. -/
structure Undoubled (mark : Char) (text : List Char) : Prop where
  apart : ¬ [mark, mark] <:+: text
  ends : text.getLast? ≠ some mark

instance (mark : Char) (text : List Char) : Decidable (Undoubled mark text) :=
  decidable_of_iff (¬ [mark, mark] <:+: text ∧ text.getLast? ≠ some mark)
    ⟨fun both => ⟨both.1, both.2⟩, fun undoubled => ⟨undoubled.apart, undoubled.ends⟩⟩

namespace Piece

/-- A piece as it stands in the template. -/
def text : Piece → String
  | .literal text => text
  | .placeholder body => "\x7b\x7b" ++ body ++ "\x7d\x7d"

/-- What a piece becomes. -/
def filled (names : Names) : Piece → String
  | .literal text => text
  | .placeholder body => match Dictionary.lookup? (Text.trimmed body) names with
    | some value => shown value
    | none => (Piece.placeholder body).text

/-- A literal in which no placeholder begins, or a placeholder that does not end early. -/
def Proper : Piece → Prop
  | .literal text => Undoubled '\x7b' text.toList
  | .placeholder body => Undoubled '\x7d' body.toList

instance : DecidablePred Proper
  | .literal text => inferInstanceAs (Decidable (Undoubled '\x7b' text.toList))
  | .placeholder body => inferInstanceAs (Decidable (Undoubled '\x7d' body.toList))

end Piece

/-- The template made of pieces. -/
def textOf (pieces : List Piece) : String := String.join (pieces.map Piece.text)

/-- A placeholder of a template stands in it behind proper pieces. -/
def HasPlaceholder (template body : String) : Prop :=
  ∃ (before : List Piece) (after : String), (∀ piece ∈ before, piece.Proper) ∧
    (Piece.placeholder body).Proper ∧
    template = textOf before ++ (Piece.placeholder body).text ++ after

/-! ### Cutting at two marks in a row -/

section Cut

variable {mark : Char} {before text after : List Char}

theorem undoubled_nil : Undoubled mark [] := ⟨by simp, by simp⟩

/-- A mark in such a text is followed by another character. -/
theorem undoubled_cons_iff {first : Char} {rest : List Char} :
    Undoubled mark (first :: rest) ↔
      Undoubled mark rest ∧ (first = mark → ∃ second ∈ rest.head?, second ≠ mark) := by
  constructor
  · rintro ⟨apart, ends⟩
    refine ⟨⟨fun twice => apart (twice.trans (List.suffix_cons first rest).isInfix), ?_⟩, ?_⟩
    · intro isLast
      cases rest with
      | nil => cases isLast
      | cons second more => exact ends (List.getLast?_cons_cons.trans isLast)
    · rintro rfl
      cases rest with
      | nil => exact absurd rfl ends
      | cons second more => exact ⟨second, rfl, fun same => apart ⟨[], more, by rw [same]; rfl⟩⟩
  · rintro ⟨⟨apart, ends⟩, followed⟩
    refine ⟨fun twice => ?_, fun isLast => ?_⟩
    · rcases List.infix_cons_iff.mp twice with begins | inside
      · obtain ⟨more, same⟩ := begins
        obtain ⟨rfl, rfl⟩ := List.cons.inj same
        obtain ⟨second, isSecond, other⟩ := followed rfl
        exact other (Option.some.inj isSecond).symm
      · exact apart inside
    · cases rest with
      | nil =>
        obtain ⟨second, isSecond, _⟩ := followed (Option.some.inj isLast)
        cases isSecond
      | cons second more => exact ends (List.getLast?_cons_cons.symm.trans isLast)

/-- Text without doubled marks is passed over. -/
theorem cutAtDouble?_append (undoubled : Undoubled mark before) (text : List Char) :
    cutAtDouble? mark (before ++ text) =
      (cutAtDouble? mark text).map fun cut => (before ++ cut.1, cut.2) := by
  induction before with
  | nil => exact Option.map_id'.symm
  | cons first rest inductionHypothesis =>
    obtain ⟨undoubledRest, followed⟩ := undoubled_cons_iff.mp undoubled
    have later := inductionHypothesis undoubledRest
    cases following : rest ++ text with
    | nil =>
      obtain ⟨rfl, rfl⟩ := List.append_eq_nil_iff.mp following
      rfl
    | cons second others =>
      have single : ¬ (first = mark ∧ second = mark) := by
        rintro ⟨isMark, rfl⟩
        obtain ⟨next, isNext, other⟩ := followed isMark
        obtain ⟨more, rfl⟩ := List.head?_eq_some_iff.mp isNext
        exact other (List.cons.inj following).1
      rw [following] at later
      rw [List.cons_append, following, cutAtDouble?, if_neg single, later, Option.map_map]
      rfl

theorem cutAtDouble?_self (rest : List Char) :
    cutAtDouble? mark (mark :: mark :: rest) = some ([], rest) := by
  rw [cutAtDouble?, if_pos ⟨rfl, rfl⟩]

/-- What stands before a cut has no doubled marks. -/
theorem undoubled_of_cutAtDouble? (cut : cutAtDouble? mark text = some (before, after)) :
    text = before ++ mark :: mark :: after ∧ Undoubled mark before := by
  induction text generalizing before with
  | nil => cases cut
  | cons first rest inductionHypothesis =>
    cases rest with
    | nil => cases cut
    | cons second others =>
      rw [cutAtDouble?] at cut
      split at cut
      · rename_i twice
        obtain ⟨rfl, rfl⟩ := Prod.mk.inj (Option.some.inj cut)
        obtain ⟨rfl, rfl⟩ := twice
        exact ⟨rfl, undoubled_nil⟩
      · rename_i single
        obtain ⟨⟨start, behind⟩, found, same⟩ := Option.map_eq_some_iff.mp cut
        obtain ⟨rfl, rfl⟩ := Prod.mk.inj same
        obtain ⟨parts, undoubled⟩ := inductionHypothesis found
        refine ⟨by rw [parts, List.cons_append], undoubled_cons_iff.mpr ⟨undoubled, ?_⟩⟩
        intro isMark
        have other : second ≠ mark := fun alike => single ⟨isMark, alike⟩
        cases start with
        | nil => exact absurd (List.cons.inj parts).1 other
        | cons next more => exact ⟨next, rfl, (List.cons.inj parts).1 ▸ other⟩

end Cut

/-! ### Filling piece by piece -/

section Fill

variable {names : Names}

/-- More fuel than characters changes nothing. -/
theorem fillFrom_of_length_le {first second : Nat} {template : List Char}
    (enough : template.length ≤ first) (more : first ≤ second) :
    fillFrom names first template = fillFrom names second template := by
  induction first generalizing second template with
  | zero =>
    obtain rfl := List.eq_nil_of_length_eq_zero (Nat.le_zero.mp enough)
    cases second <;> rfl
  | succ first inductionHypothesis =>
    obtain ⟨second, rfl⟩ : ∃ fuel, second = fuel + 1 := ⟨second - 1, by omega⟩
    rw [fillFrom, fillFrom]
    cases opened : cutAtDouble? '\x7b' template with
    | none => rfl
    | some cut =>
      obtain ⟨before, inside⟩ := cut
      cases closed : cutAtDouble? '\x7d' inside with
      | none => simp only [closed]
      | some cut =>
        obtain ⟨body, rest⟩ := cut
        have shorter : rest.length ≤ first := by
          have outer := congrArg List.length (undoubled_of_cutAtDouble? opened).1
          have inner := congrArg List.length (undoubled_of_cutAtDouble? closed).1
          simp only [List.length_append, List.length_cons] at outer inner
          omega
        simp only [closed, inductionHypothesis shorter (Nat.le_of_succ_le_succ more)]

theorem fillFrom_append_literal {before : List Char} (undoubled : Undoubled '\x7b' before)
    (fuel : Nat) (rest : List Char) :
    fillFrom names fuel (before ++ rest) = String.ofList before ++ fillFrom names fuel rest := by
  cases fuel with
  | zero => exact String.ofList_append
  | succ fuel =>
    rw [fillFrom, fillFrom, cutAtDouble?_append undoubled]
    cases cutAtDouble? '\x7b' rest with
    | none => exact String.ofList_append
    | some cut =>
      obtain ⟨start, inside⟩ := cut
      cases closed : cutAtDouble? '\x7d' inside with
      | none => simp [closed]
      | some cut => simp [closed, String.append_assoc]

theorem filled_placeholder (names : Names) (body : String) :
    (Piece.placeholder body).filled names = filledPlaceholder names body.toList := by
  unfold Piece.filled filledPlaceholder
  rw [String.ofList_toList]
  rfl

theorem fillFrom_append_placeholder {body : String} (proper : (Piece.placeholder body).Proper)
    (fuel : Nat) (rest : List Char) :
    fillFrom names (fuel + 1) ((Piece.placeholder body).text.toList ++ rest) =
      (Piece.placeholder body).filled names ++ fillFrom names fuel rest := by
  have opens : (Piece.placeholder body).text.toList ++ rest =
      '\x7b' :: '\x7b' :: (body.toList ++ '\x7d' :: '\x7d' :: rest) := by
    simp [Piece.text]
  rw [opens, fillFrom, cutAtDouble?_self]
  simp only [cutAtDouble?_append proper, cutAtDouble?_self, Option.map_some, List.append_nil,
    filled_placeholder]
  rw [String.ofList_nil, String.empty_append]

/-- A proper piece is filled on its own, whatever follows it. -/
theorem fill_append {piece : Piece} (proper : piece.Proper) (rest : String) :
    fill (piece.text ++ rest) names = piece.filled names ++ fill rest names := by
  have enough : rest.toList.length = rest.length := String.length_toList
  unfold fill
  rw [String.toList_append, String.length_append]
  cases piece with
  | literal text =>
    rw [Piece.text, fillFrom_append_literal proper, String.ofList_toList,
      ← fillFrom_of_length_le (Nat.le_of_eq enough) (Nat.le_add_left _ _)]
    rfl
  | placeholder body =>
    obtain ⟨fuel, isLonger⟩ : ∃ fuel, (Piece.placeholder body).text.length = fuel + 1 := by
      refine ⟨body.length + 3, ?_⟩
      have opening : "\x7b\x7b".length = 2 := rfl
      have closing : "\x7d\x7d".length = 2 := rfl
      rw [Piece.text, String.length_append, String.length_append]
      omega
    rw [isLonger, Nat.add_right_comm, fillFrom_append_placeholder proper,
      ← fillFrom_of_length_le (Nat.le_of_eq enough) (Nat.le_add_left _ _)]

theorem textOf_cons (piece : Piece) (pieces : List Piece) :
    textOf (piece :: pieces) = piece.text ++ textOf pieces := by
  simp [textOf]

/-- Proper pieces are filled one by one, whatever follows them. -/
theorem fill_textOf_append {pieces : List Piece} (proper : ∀ piece ∈ pieces, piece.Proper)
    (rest : String) :
    fill (textOf pieces ++ rest) names =
      String.join (pieces.map (Piece.filled names)) ++ fill rest names := by
  induction pieces with
  | nil => simp [textOf]
  | cons piece more inductionHypothesis =>
    rw [textOf_cons, String.append_assoc, fill_append (proper piece List.mem_cons_self),
      inductionHypothesis fun other member => proper other (List.mem_cons_of_mem _ member)]
    simp [String.append_assoc]

end Fill

/-! ### Templates without known placeholders -/

/-- Either nothing is filled in, or there is a first placeholder. -/
theorem fill_eq_or_exists_placeholder (template : String) (names : Names) :
    fill template names = template ∨
      ∃ before body rest, (Piece.literal before).Proper ∧ (Piece.placeholder body).Proper ∧
        template = (Piece.literal before).text ++ ((Piece.placeholder body).text ++ rest) := by
  unfold fill
  cases template.length with
  | zero => exact .inl String.ofList_toList
  | succ fuel =>
    rw [fillFrom]
    cases opened : cutAtDouble? '\x7b' template.toList with
    | none => exact .inl String.ofList_toList
    | some cut =>
      obtain ⟨before, inside⟩ := cut
      cases closed : cutAtDouble? '\x7d' inside with
      | none =>
        simp only [closed]
        exact .inl String.ofList_toList
      | some cut =>
        obtain ⟨body, rest⟩ := cut
        obtain ⟨outer, undoubledBefore⟩ := undoubled_of_cutAtDouble? opened
        obtain ⟨inner, undoubledBody⟩ := undoubled_of_cutAtDouble? closed
        refine .inr ⟨.ofList before, .ofList body, .ofList rest, ?_, ?_, ?_⟩
        · rwa [Piece.Proper, String.toList_ofList]
        · rwa [Piece.Proper, String.toList_ofList]
        · rw [← String.toList_inj, outer, inner]
          simp [Piece.text]

theorem HasPlaceholder.of_append {pieces : List Piece} (proper : ∀ piece ∈ pieces, piece.Proper)
    {rest body : String} (has : HasPlaceholder rest body) :
    HasPlaceholder (textOf pieces ++ rest) body := by
  obtain ⟨before, after, properBefore, properBody, rfl⟩ := has
  refine ⟨pieces ++ before, after, ?_, properBody, ?_⟩
  · exact List.forall_mem_append.mpr ⟨proper, properBefore⟩
  · simp [textOf, String.append_assoc]

/-- A template stays as it is if none of its placeholders is known. -/
theorem fill_of_unknown {names : Names} (template : String)
    (unknown : ∀ body, HasPlaceholder template body →
      Dictionary.lookup? (Text.trimmed body) names = none) :
    fill template names = template := by
  -- What follows the first placeholder is a shorter template.
  induction size : template.length using Nat.strongRecOn generalizing template with
  | ind size inductionHypothesis =>
    rcases fill_eq_or_exists_placeholder template names with stays | ⟨before, body, rest, cut⟩
    · exact stays
    · obtain ⟨properBefore, properBody, rfl⟩ := cut
      have isFirst : Dictionary.lookup? (Text.trimmed body) names = none := by
        refine unknown body ⟨[.literal before], rest, ?_, properBody, ?_⟩
        · simpa using properBefore
        · simp [textOf, String.append_assoc]
      have kept : (Piece.placeholder body).filled names = (Piece.placeholder body).text := by
        rw [Piece.filled, isFirst]
      have later : fill rest names = rest := by
        have proper : ∀ piece ∈ [Piece.literal before, .placeholder body], piece.Proper := by
          simpa using ⟨properBefore, properBody⟩
        refine inductionHypothesis rest.length ?_ rest (fun other has => unknown other ?_) rfl
        · have opening : "\x7b\x7b".length = 2 := rfl
          simp only [Piece.text, String.length_append] at size
          omega
        · have further := has.of_append proper
          rwa [textOf_cons, textOf_cons, String.append_assoc, String.append_assoc] at further
      rw [fill_append properBefore, fill_append properBody, kept, later]
      rfl

/-- Proper pieces put together are filled one by one, whatever is inserted for them.  A template none
of whose placeholders is known stays as it is. -/
theorem fill_textOf :
    (∀ (names : Names) (pieces : List Piece), (∀ piece ∈ pieces, piece.Proper) →
      fill (textOf pieces) names = String.join (pieces.map (Piece.filled names))) ∧
    ∀ (names : Names) (template : String),
      (∀ body, HasPlaceholder template body →
        Dictionary.lookup? (Text.trimmed body) names = none) →
      fill template names = template := by
  refine ⟨fun names pieces proper => ?_, fun names template => fill_of_unknown template⟩
  have filled : fill (textOf pieces ++ "") names =
      String.join (pieces.map (Piece.filled names)) ++ fill "" names := fill_textOf_append proper ""
  have nothing : fill "" names = "" := rfl
  rwa [nothing, String.append_empty, String.append_empty] at filled

end Vetting.Scope

namespace Vetting.Example

open Scope Json

/-- A name whose value looks like a placeholder of another name. -/
def braced : Names := [("name", .text "\x7b\x7bother\x7d\x7d"), ("other", .text "secret")]

/-- A known and an unknown placeholder between literal braces. -/
def greeting : List Piece :=
  [.literal "\x7d hello ", .placeholder " name ", .placeholder "\x7b\x7bcity", .literal "\x7d"]

/-- Inserted braces are not read again, and a placeholder that is not closed stays although its name
is known. -/
theorem fill_greeting :
    ((∀ piece ∈ greeting, piece.Proper) ∧
      fill (textOf greeting) braced =
        "\x7d hello \x7b\x7bother\x7d\x7d\x7b\x7b\x7b\x7bcity\x7d\x7d\x7d") ∧
    ((∀ body, HasPlaceholder "\x7b\x7bname\x7d" body →
        Dictionary.lookup? (Text.trimmed body) braced = none) ∧
      fill "\x7b\x7bname\x7d" braced = "\x7b\x7bname\x7d") := by
  have proper : ∀ piece ∈ greeting, piece.Proper := by decide
  have unknown : ∀ body, HasPlaceholder "\x7b\x7bname\x7d" body →
      Dictionary.lookup? (Text.trimmed body) braced = none := by
    rintro body ⟨before, after, -, -, same⟩
    have closes : ['\x7d', '\x7d'] <:+: "\x7b\x7bname\x7d".toList := by
      rw [same]
      exact ⟨(textOf before).toList ++ ("\x7b\x7b" ++ body).toList, after.toList,
        by simp [Piece.text]⟩
    exact absurd closes (by decide)
  refine ⟨⟨proper, (fill_textOf.1 braced greeting proper).trans ?_⟩,
    unknown, fill_textOf.2 braced _ unknown⟩
  decide

end Vetting.Example
