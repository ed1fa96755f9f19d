import Vetting.Proofs.Digest.Token
import Vetting.Proofs.Json.Compact
import Vetting.Workflow.Step

/-!
Contract: different values have different canonical texts.

Owns:
- values that a reader can produce are settled already;
- the hexadecimal digits of a number denote it, and an identifier is told from its text;
- the canonical texts of values without floating-point numbers, and with them the texts whose
  digests are tokens and marks of configurations, tell those values apart.

Does not own: that different texts have different digests.
-/

namespace Vetting

/-! ### Settled values -/

namespace Dictionary

variable {α : Type}

theorem insert_of_last {key : String} {value : α} {entries : List (String × α)}
    (last : ∀ entry ∈ entries, entry.1 < key) :
    insert key value entries = entries ++ [(key, value)] := by
  induction entries with
  | nil => rfl
  | cons entry rest inductionHypothesis =>
    obtain ⟨name, old⟩ := entry
    have before : name < key := last (name, old) List.mem_cons_self
    have other : key ≠ name := fun same => String.lt_irrefl key (same ▸ before)
    rw [insert, if_neg other, if_neg (String.lt_asymm before),
      inductionHypothesis fun entry member => last entry (List.mem_cons_of_mem _ member),
      List.cons_append]

theorem foldl_insert_of_sorted {first second : List (String × α)}
    (sorted : Sorted (first ++ second)) :
    second.foldl (fun built entry => insert entry.1 entry.2 built) first = first ++ second := by
  induction second generalizing first with
  | nil => simp
  | cons entry rest inductionHypothesis =>
    have last : ∀ other ∈ first, other.1 < entry.1 := fun other member =>
      (List.pairwise_append.mp sorted).2.2 other member entry List.mem_cons_self
    rw [List.foldl_cons, insert_of_last last, inductionHypothesis (by simpa using sorted)]
    simp

theorem ofEntries_of_sorted {entries : List (String × α)} (sorted : Sorted entries) :
    ofEntries entries = entries := foldl_insert_of_sorted sorted

end Dictionary

namespace Json.Value

mutual

/-- What a reader can produce is settled. -/
theorem Proper.settled_eq : ∀ {value : Value}, value.Proper → value.settled = value
  | .null, _ | .boolean _, _ | .number _, _ | .text _, _ => rfl
  | .array _, proper => congrArg Value.array (ProperItems.settled_eq proper)
  | .object entries, proper => by
    rw [settled, ProperEntries.settled_eq proper.2, ofEntries,
      Dictionary.ofEntries_of_sorted proper.1]

theorem ProperItems.settled_eq : ∀ {items : List Value}, ProperItems items →
    settledItems items = items
  | [], _ => rfl
  | _ :: _, proper => by rw [settledItems, proper.1.settled_eq, proper.2.settled_eq]

theorem ProperEntries.settled_eq : ∀ {entries : List (String × Value)}, ProperEntries entries →
    settledEntries entries = entries
  | [], _ => rfl
  | (_, _) :: _, proper => by
    rw [settledEntries, proper.1.settled_eq, proper.2.settled_eq]

end

end Json.Value

/-! ### Identifiers -/

namespace Text.Hexadecimal

theorem digit?_digitChar : ∀ digit < 16, digit? digit.digitChar = some digit := by decide

theorem number?_append (digits : List Char) (digit : Char) :
    number? (digits ++ [digit]) = do return (← number? digits) * 16 + (← digit? digit) := by
  simp [number?]

theorem number?_toDigits (number : Nat) : number? (Nat.toDigits 16 number) = some number := by
  induction number using Nat.strongRecOn with
  | ind number inductionHypothesis =>
    rw [Nat.toDigits_eq_if (by omega)]
    split
    next small => simp [number?, digit?_digitChar number small]
    next large =>
      rw [number?_append, inductionHypothesis (number / 16) (by omega),
        digit?_digitChar _ (Nat.mod_lt _ (by omega))]
      simp [Nat.div_add_mod']

theorem number?_zeros (count : Nat) (digits : List Char) :
    number? (List.replicate count '0' ++ digits) = number? digits := by
  induction count with
  | zero => rfl
  | succ count inductionHypothesis => exact inductionHypothesis

theorem number?_padded (width number : Nat) : number? (padded width number) = some number := by
  rw [padded, number?_zeros, number?_toDigits]

theorem padded_inj {width number other : Nat} (same : padded width number = padded width other) :
    number = other := by
  have numbers := congrArg number? same
  rw [number?_padded, number?_padded] at numbers
  exact Option.some.inj numbers

theorem not_mem_padded {character : Char} (noDigit : ∀ digit : Nat, character ≠ digit.digitChar)
    (width number : Nat) : character ∉ padded width number := by
  have digits : ∀ number : Nat, character ∉ Nat.toDigits 16 number := by
    intro number
    induction number using Nat.strongRecOn with
    | ind number inductionHypothesis =>
      rw [Nat.toDigits_eq_if (by omega)]
      split
      next => simp [noDigit]
      next large => simp [noDigit, inductionHypothesis (number / 16) (by omega)]
  have isZero : character ≠ '0' := noDigit 0
  simp [padded, digits, isZero]

theorem hyphen_not_mem_padded (width number : Nat) : '-' ∉ padded width number :=
  not_mem_padded (fun _ => (Nat.digitChar_ne '-' rfl).symm) width number

end Text.Hexadecimal

namespace Uuid

open Text.Hexadecimal

/-- What stands before the first hyphen is told from what follows it. -/
theorem append_hyphen_inj {first second rest more : List Char} (clean : '-' ∉ first)
    (otherClean : '-' ∉ second) (same : first ++ '-' :: rest = second ++ '-' :: more) :
    first = second ∧ rest = more := by
  induction first generalizing second with
  | nil =>
    cases second with
    | nil => exact ⟨rfl, (List.cons.inj same).2⟩
    | cons => exact absurd ((List.cons.inj same).1 ▸ List.mem_cons_self) otherClean
  | cons character others inductionHypothesis =>
    cases second with
    | nil => exact absurd ((List.cons.inj same).1 ▸ List.mem_cons_self) clean
    | cons other remaining =>
      obtain ⟨rfl, left⟩ := List.cons.inj same
      obtain ⟨rfl, rfl⟩ := inductionHypothesis (fun later => clean (List.mem_cons_of_mem _ later))
        (fun later => otherClean (List.mem_cons_of_mem _ later)) left
      exact ⟨rfl, rfl⟩

/-- Identifiers with the same text are the same. -/
theorem text_inj {first second : Uuid} (same : first.text = second.text) : first = second := by
  have characters := String.ofList_inj.mp same
  simp only [List.append_assoc, List.cons_append] at characters
  obtain ⟨group1, characters⟩ := append_hyphen_inj (hyphen_not_mem_padded _ _)
    (hyphen_not_mem_padded _ _) characters
  obtain ⟨group2, characters⟩ := append_hyphen_inj (hyphen_not_mem_padded _ _)
    (hyphen_not_mem_padded _ _) characters
  obtain ⟨group3, characters⟩ := append_hyphen_inj (hyphen_not_mem_padded _ _)
    (hyphen_not_mem_padded _ _) characters
  obtain ⟨group4, group5⟩ := append_hyphen_inj (hyphen_not_mem_padded _ _)
    (hyphen_not_mem_padded _ _) characters
  have numbers : first.number = second.number := by
    have part1 := padded_inj group1
    have part2 := padded_inj group2
    have part3 := padded_inj group3
    have part4 := padded_inj group4
    have part5 := padded_inj group5
    simp only [Nat.pow_eq] at part1 part2 part3 part4 part5
    omega
  exact congrArg Uuid.mk numbers

end Uuid

/-! ### Canonical texts -/

namespace Digest

open Json (Value)

theorem exact_attemptValue (stepRunId : Uuid) (attempt : Nat) :
    (attemptValue stepRunId attempt).Exact := ⟨trivial, trivial, trivial⟩

/-- Attempts whose tokens are made of one text are one attempt at one step. -/
theorem attemptValue_inj {first second : Uuid} {attempt other : Nat}
    (same : canonical (attemptValue first attempt) = canonical (attemptValue second other)) :
    first = second ∧ attempt = other := by
  rw [canonical, canonical, settled_attemptValue, settled_attemptValue] at same
  have values := (exact_attemptValue _ _).compact_inj (exact_attemptValue _ _) same
  simp only [attemptValue, Value.natural, Uuid.toValue, Value.object.injEq, List.cons.injEq,
    Prod.mk.injEq, Value.number.injEq, Json.Number.integer.injEq, Value.text.injEq, true_and,
    and_true, Int.natCast_inj] at values
  exact ⟨Uuid.text_inj values.2, values.1⟩

/-- Canonical texts tell apart values without floating-point numbers.  So no two attempts have one
text whose digest is their token, and no two such configurations have one text whose digest marks
them. -/
theorem canonical_distinguishes :
    (∀ first second : Value, first.Proper → first.Exact → second.Proper → second.Exact →
      (canonical first = canonical second ↔ first = second)) ∧
    (∀ (stepRunId other : Uuid) (attempt later : Nat), (stepRunId, attempt) ≠ (other, later) →
      canonical (attemptValue stepRunId attempt) ≠ canonical (attemptValue other later)) ∧
    (∀ validator other : Validator, validator.config.Proper → validator.config.Exact →
      other.config.Proper → other.config.Exact → validator.config ≠ other.config →
      canonical validator.config ≠ canonical other.config) := by
  have distinct : ∀ first second : Value, first.Proper → first.Exact → second.Proper →
      second.Exact → canonical first = canonical second → first = second := by
    intro first second proper exact otherProper otherExact same
    rw [canonical, canonical, proper.settled_eq, otherProper.settled_eq] at same
    exact exact.compact_inj otherExact same
  refine ⟨fun first second proper exact otherProper otherExact =>
    ⟨distinct first second proper exact otherProper otherExact, congrArg canonical⟩, ?_, ?_⟩
  · intro stepRunId other attempt later different same
    obtain ⟨rfl, rfl⟩ := attemptValue_inj same
    exact different rfl
  · intro validator other proper exact otherProper otherExact different same
    exact different (distinct _ _ proper exact otherProper otherExact same)

end Digest

namespace Example

open Json (Value)

/-- An object with a string that has a quote, a comma and a quote in it. -/
def joined : Value := .object [("keys", .array [.text "a\",\"b", .integer (-1)])]

/-- An object with two strings instead, whose texts are a part of the other one's. -/
def parted : Value := .object [("keys", .array [.text "a", .text "b", .integer (-1)])]

theorem canonical_distinguishes_joined :
    (joined.Proper ∧ joined.Exact) ∧ (parted.Proper ∧ parted.Exact) ∧
      (Digest.canonical joined = Digest.canonical parted ↔ joined = parted) ∧ joined ≠ parted ∧
      Digest.canonical (Digest.attemptValue ⟨1⟩ 12) ≠
        Digest.canonical (Digest.attemptValue ⟨1⟩ 1) ∧
      Digest.canonical (Validator.mk "any" joined []).config ≠
        Digest.canonical (Validator.mk "any" parted []).config := by
  have inRange : Json.Number.IntegerInRange (-1) := by decide
  have isJoined : joined.Proper ∧ joined.Exact :=
    ⟨⟨List.pairwise_singleton _ _, ⟨trivial, inRange, trivial⟩, trivial⟩,
      ⟨trivial, trivial, trivial⟩, trivial⟩
  have isParted : parted.Proper ∧ parted.Exact :=
    ⟨⟨List.pairwise_singleton _ _, ⟨trivial, trivial, inRange, trivial⟩, trivial⟩,
      ⟨trivial, trivial, trivial, trivial⟩, trivial⟩
  have different : joined ≠ parted := by simp [joined, parted]
  exact ⟨isJoined, isParted,
    Digest.canonical_distinguishes.1 joined parted isJoined.1 isJoined.2 isParted.1 isParted.2,
    different, Digest.canonical_distinguishes.2.1 ⟨1⟩ ⟨1⟩ 12 1 (by decide),
    Digest.canonical_distinguishes.2.2 ⟨"any", joined, []⟩ ⟨"any", parted, []⟩ isJoined.1
      isJoined.2 isParted.1 isParted.2 different⟩

end Example

end Vetting
