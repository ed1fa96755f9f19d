import Vetting.Scope.Names

/-!
Contract: what a document can make of the names that are meant for signals.

Owns:
- look-ups in a table that has been put together from several sources;
- which names each source can give;
- how much of the names under `steps` depends on the document.

Does not own: what an assertion does with a name, or where signals come from.

The names of the document all start with `payload`, and signals are put in last.
A bare key, however, is any text that the document uses as a key, so it may spell
a name under `steps` that no signal has.
-/

namespace Vetting

namespace Dictionary

universe u

variable {α : Type u}

theorem lookup?_append (wanted : String) (first second : List (String × α)) :
    lookup? wanted (first ++ second) = (lookup? wanted first).or (lookup? wanted second) := by
  induction first with
  | nil => rfl
  | cons entry rest ih =>
    obtain ⟨name, value⟩ := entry
    by_cases found : name = wanted
    · simp [lookup?, found]
    · simpa [lookup?, found] using ih

/-- In a merged table the last entry of the second list wins, then the first list counts. -/
theorem lookup?_merge (wanted : String) (first second : List (String × α)) :
    lookup? wanted (merge first second) =
      (lookup? wanted second.reverse).or (lookup? wanted first) := by
  induction second generalizing first with
  | nil => rfl
  | cons entry rest ih =>
    obtain ⟨name, value⟩ := entry
    have step : merge first ((name, value) :: rest) = merge (insert name value first) rest := rfl
    rw [step, ih, lookup?_insert, List.reverse_cons, lookup?_append, Option.or_assoc]
    by_cases found : name = wanted <;> simp [lookup?, found]

theorem lookup?_ofEntries (wanted : String) (entries : List (String × α)) :
    lookup? wanted (ofEntries entries) = lookup? wanted entries.reverse := by
  have whole := lookup?_merge wanted [] entries
  rw [lookup?_nil, Option.or_none] at whole
  exact whole

theorem mem_of_lookup? {wanted : String} {value : α} {entries : List (String × α)}
    (found : lookup? wanted entries = some value) : (wanted, value) ∈ entries := by
  induction entries with
  | nil => cases found
  | cons entry rest ih =>
    obtain ⟨name, old⟩ := entry
    by_cases here : name = wanted
    · simp only [lookup?, here, if_true, Option.some.injEq] at found
      rw [here, found]
      exact List.mem_cons_self
    · simp only [lookup?, here, if_false] at found
      exact List.mem_cons_of_mem _ (ih found)

theorem mem_of_insert {key : String} {value : α} {entry : String × α} {entries : List (String × α)}
    (inside : entry ∈ insert key value entries) : entry = (key, value) ∨ entry ∈ entries := by
  induction entries with
  | nil => exact Or.inl (List.mem_singleton.mp inside)
  | cons first rest ih =>
    obtain ⟨name, old⟩ := first
    unfold insert at inside
    split at inside
    · exact (List.mem_cons.mp inside).imp_right (List.mem_cons_of_mem _)
    · split at inside
      · exact List.mem_cons.mp inside
      · cases List.mem_cons.mp inside with
        | inl kept => exact Or.inr (kept ▸ List.mem_cons_self)
        | inr later => exact (ih later).imp_right (List.mem_cons_of_mem _)

/-- Merging makes up no entries. -/
theorem mem_of_merge {entry : String × α} {first second : List (String × α)}
    (inside : entry ∈ merge first second) : entry ∈ first ∨ entry ∈ second := by
  induction second generalizing first with
  | nil => exact Or.inl inside
  | cons next rest ih =>
    cases ih inside with
    | inl built =>
      cases mem_of_insert built with
      | inl new => exact Or.inr (new ▸ List.mem_cons_self)
      | inr old => exact Or.inl old
    | inr later => exact Or.inr (List.mem_cons_of_mem _ later)

theorem lookup?_eq_none_iff {wanted : String} {entries : List (String × α)} :
    lookup? wanted entries = none ↔ wanted ∉ keys entries := by
  induction entries with
  | nil => simp [keys]
  | cons entry rest ih =>
    obtain ⟨name, old⟩ := entry
    by_cases here : name = wanted
    · simp [lookup?, keys, here]
    · have there : wanted ≠ name := fun equal => here equal.symm
      simpa [lookup?, keys, here, there] using ih

/-- Where no two entries have the same key, the table has exactly the entries of the list. -/
theorem lookup?_ofEntries_iff {wanted : String} {value : α} {entries : List (String × α)}
    (single : ∀ first ∈ entries, ∀ second ∈ entries, first.1 = second.1 → first = second) :
    lookup? wanted (ofEntries entries) = some value ↔ (wanted, value) ∈ entries := by
  rw [lookup?_ofEntries]
  constructor
  · intro found
    exact List.mem_reverse.mp (mem_of_lookup? found)
  · intro listed
    cases found : lookup? wanted entries.reverse with
    | none =>
      refine absurd ?_ (lookup?_eq_none_iff.mp found)
      exact List.mem_map.mpr ⟨(wanted, value), List.mem_reverse.mpr listed, rfl⟩
    | some other =>
      have also := List.mem_reverse.mp (mem_of_lookup? found)
      have same := single _ also _ listed rfl
      rw [(Prod.mk.inj same).2]

end Dictionary

namespace Scope

open Json (Value)

/-! ### The names that a source can give -/

/-- The names under `steps`, which are meant for signals. -/
def InSignalSpace (name : String) : Prop := ∃ rest, name = signalRoot ++ "." ++ rest

mutual

/-- A part of a value is named after the value. -/
theorem named_of_flattened (root : String) : ∀ (value : Value),
    ∀ entry ∈ flattened root value, ∃ rest, entry.1 = root ++ rest
  | .object entries => by
    intro entry listed
    rw [flattened] at listed
    exact named_of_flattenedEntries root entries entry listed
  | .array items => by
    intro entry listed
    rw [flattened] at listed
    cases List.mem_cons.mp listed with
    | inl whole => exact ⟨"", by rw [whole, String.append_empty]⟩
    | inr inside => exact named_of_flattenedItems root 0 items entry inside
  | .null | .boolean _ | .number _ | .text _ => by
    intro entry listed
    rw [flattened, List.mem_singleton] at listed
    · exact ⟨"", by rw [listed, String.append_empty]⟩
    all_goals simp

theorem named_of_flattenedEntries (root : String) : ∀ (entries : List (String × Value)),
    ∀ entry ∈ flattenedEntries root entries, ∃ rest, entry.1 = root ++ rest
  | [] => by
    intro entry listed
    rw [flattenedEntries] at listed
    cases listed
  | (key, value) :: more => by
    intro entry listed
    rw [flattenedEntries] at listed
    cases List.mem_append.mp listed with
    | inl inside =>
      obtain ⟨rest, named⟩ := named_of_flattened (root ++ "." ++ key) value entry inside
      exact ⟨"." ++ key ++ rest, by rw [named]; simp only [String.append_assoc]⟩
    | inr later => exact named_of_flattenedEntries root more entry later

theorem named_of_flattenedItems (root : String) (position : Nat) : ∀ (items : List Value),
    ∀ entry ∈ flattenedItems root position items, ∃ rest, entry.1 = root ++ rest
  | [] => by
    intro entry listed
    rw [flattenedItems] at listed
    cases listed
  | item :: more => by
    intro entry listed
    rw [flattenedItems] at listed
    cases List.mem_append.mp listed with
    | inl inside =>
      split at inside
      · obtain ⟨rest, named⟩ :=
          named_of_flattened (root ++ "." ++ toString position) item entry inside
        exact ⟨"." ++ toString position ++ rest, by rw [named]; simp only [String.append_assoc]⟩
      · cases inside
    | inr later => exact named_of_flattenedItems root (position + 1) more entry later

end

/-- The roots differ in their first letter already. -/
theorem not_inSignalSpace_document (rest : String) : ¬ InSignalSpace (documentRoot ++ rest) := by
  rintro ⟨other, equal⟩
  have letters := congrArg String.toList equal
  simp [documentRoot, signalRoot] at letters

/-- Of a key that occurs once there is one occurrence. -/
theorem eq_of_unambiguous {occurrences : List (String × Value)} {first second : String × Value}
    (isFirst : first ∈ unambiguous occurrences) (isSecond : second ∈ unambiguous occurrences)
    (same : first.1 = second.1) : first = second := by
  obtain ⟨listed, once⟩ := List.mem_filter.mp isFirst
  have alone := List.length_eq_one_iff.mp (beq_iff_eq.mp once)
  obtain ⟨only, filtered⟩ := alone
  have holds (other : String × Value) (inside : other ∈ occurrences) (equal : other.1 = first.1) :
      other = only := by
    have kept : other ∈ occurrences.filter fun one => one.1 == first.1 :=
      List.mem_filter.mpr ⟨inside, beq_iff_eq.mpr equal⟩
    rw [filtered] at kept
    exact List.mem_singleton.mp kept
  rw [holds first listed rfl, holds second (List.mem_filter.mp isSecond).1 same.symm]

namespace StageInput

variable {input : StageInput} {name : String}

theorem lookup?_documentNames (reserved : InSignalSpace name) :
    Dictionary.lookup? name input.documentNames.reverse = none := by
  rw [Dictionary.lookup?_eq_none_iff]
  intro listed
  obtain ⟨entry, inside, rfl⟩ := List.mem_map.mp listed
  have given : entry ∈ [] ∨ entry ∈ flattened documentRoot input.payload :=
    Dictionary.mem_of_merge (List.mem_reverse.mp inside)
  obtain ⟨rest, named⟩ := named_of_flattened _ _ entry (given.resolve_left List.not_mem_nil)
  rw [named] at reserved
  exact not_inSignalSpace_document rest reserved

/-- A catalog gives no names but those of its entries. -/
theorem exists_of_catalogNames {entry : String × Value} (listed : entry ∈ input.catalogNames) :
    ∃ named ∈ input.catalog, named.name = entry.1 := by
  obtain ⟨named, inside, given⟩ := List.mem_filterMap.mp listed
  refine ⟨named, inside, ?_⟩
  unfold catalogName? at given
  split at given
  · split at given
    · rw [← Option.some.inj given]
    · split at given
      · rw [← Option.some.inj given]
      · cases given
  · cases given

theorem lookup?_catalogNames (apart : ∀ entry ∈ input.catalog, ¬ InSignalSpace entry.name)
    (reserved : InSignalSpace name) :
    Dictionary.lookup? name input.catalogNames.reverse = none := by
  rw [Dictionary.lookup?_eq_none_iff]
  intro listed
  obtain ⟨entry, inside, rfl⟩ := List.mem_map.mp listed
  obtain ⟨named, held, same⟩ := exists_of_catalogNames (List.mem_reverse.mp inside)
  exact apart named held (same ▸ reserved)

/-- A name under `steps` is a signal, or else the bare key that spells it. -/
theorem lookup?_names_of_inSignalSpace (input : StageInput) (bareKeys : Bool)
    (apart : ∀ entry ∈ input.catalog, ¬ InSignalSpace entry.name)
    (reserved : InSignalSpace name) :
    Dictionary.lookup? name (input.names bareKeys) =
      (Dictionary.lookup? name input.signalNames.reverse).or
        (if bareKeys then Dictionary.lookup? name input.bareNames else none) := by
  unfold names
  rw [Dictionary.lookup?_merge, Dictionary.lookup?_merge, lookup?_catalogNames apart reserved,
    Option.none_or, Dictionary.lookup?_merge, lookup?_documentNames reserved, Option.none_or]
  cases bareKeys <;> rfl

/-- A bare key that occurs once is visible with its value, and no other bare key is. -/
theorem lookup?_bareNames (input : StageInput) {value : Value} :
    Dictionary.lookup? name input.bareNames = some value ↔
      (name, value) ∈ unambiguous (leaves input.payload) :=
  Dictionary.lookup?_ofEntries_iff fun _ first _ second same =>
    eq_of_unambiguous first second same

/-- A document bears on a name under `steps` exactly as the bare key that spells it: where bare
keys are names, no signal has that name, and the other document has another value for the key or
does not have it once. -/
theorem sameSignal_iff (input : StageInput) (other : Value) (bareKeys : Bool)
    (apart : ∀ entry ∈ input.catalog, ¬ InSignalSpace entry.name) :
    ∀ name, InSignalSpace name →
      (Dictionary.lookup? name (input.names bareKeys) =
          Dictionary.lookup? name ({ input with payload := other }.names bareKeys) ↔
        (bareKeys = true → name ∉ Dictionary.keys input.signalNames → ∀ value,
          ((name, value) ∈ unambiguous (leaves input.payload) ↔
            (name, value) ∈ unambiguous (leaves other)))) := by
  intro name reserved
  have here := lookup?_names_of_inSignalSpace input bareKeys apart reserved
  have there := lookup?_names_of_inSignalSpace { input with payload := other } bareKeys apart
    reserved
  have sameSignals : StageInput.signalNames { input with payload := other } = input.signalNames :=
    rfl
  rw [here, there, sameSignals]
  cases signal : Dictionary.lookup? name input.signalNames.reverse with
  | some value =>
    have known : name ∈ Dictionary.keys input.signalNames :=
      List.mem_map.mpr ⟨_, List.mem_reverse.mp (Dictionary.mem_of_lookup? signal), rfl⟩
    exact ⟨fun _ _ unknown => absurd known unknown, fun _ => rfl⟩
  | none =>
    have unknown : name ∉ Dictionary.keys input.signalNames := by
      have reversed := Dictionary.lookup?_eq_none_iff.mp signal
      rwa [Dictionary.keys, List.map_reverse, List.mem_reverse] at reversed
    cases bareKeys with
    | false => exact ⟨fun _ off => absurd off Bool.false_ne_true, fun _ => rfl⟩
    | true =>
      simp only [Option.none_or, if_true, forall_const, unknown, not_false_eq_true]
      constructor
      · intro same value
        rw [← lookup?_bareNames input, same, lookup?_bareNames]
      · intro same
        refine Option.ext fun value => ?_
        rw [lookup?_bareNames, same, lookup?_bareNames { input with payload := other }]

end StageInput

end Scope

namespace Example

open Scope

/-- A step `parse` has said how many rows there are; the document claims to know of errors. -/
def forging : StageInput :=
  { stage := .input
    payload := .object [("steps.parse.count", .text "7"), ("steps.parse.errors", .text "0")]
    catalog := []
    signals := [("parse", [("count", .text "1")])] }

/-- The signal is safe from the document, and a name that no signal has is not. -/
theorem sameSignal_forging :
    (∀ entry ∈ forging.catalog, ¬ InSignalSpace entry.name) ∧
      Dictionary.lookup? "steps.parse.count" (forging.names true) =
        Dictionary.lookup? "steps.parse.count"
          ({ forging with payload := .null }.names true) ∧
      Dictionary.lookup? "steps.parse.errors" (forging.names true) ≠
        Dictionary.lookup? "steps.parse.errors"
          ({ forging with payload := .null }.names true) := by
  have apart : ∀ entry ∈ forging.catalog, ¬ InSignalSpace entry.name :=
    fun _ listed => absurd listed List.not_mem_nil
  have pointwise := StageInput.sameSignal_iff forging .null true apart
  refine ⟨apart, ?_, ?_⟩
  · refine (pointwise _ ⟨"parse.count", rfl⟩).mpr fun _ unknown => absurd ?_ unknown
    decide
  · intro same
    have alike := (pointwise _ ⟨"parse.errors", rfl⟩).mp same rfl (by decide) (.text "0")
    have spelled : ("steps.parse.errors", Json.Value.text "0") ∈
        unambiguous (leaves forging.payload) := by
      simp [unambiguous, leaves, leavesOfEntries, forging]
    have absent : unambiguous (leaves .null) = [] := rfl
    exact List.not_mem_nil (absent ▸ alike.mp spelled)

/-- Documents can bear on the names under `steps`. -/
theorem not_sameSignal :
    ¬ ∀ (input : StageInput) (other : Json.Value) (bareKeys : Bool),
      (∀ entry ∈ input.catalog, ¬ InSignalSpace entry.name) →
      ∀ name, InSignalSpace name →
        Dictionary.lookup? name (input.names bareKeys) =
          Dictionary.lookup? name ({ input with payload := other }.names bareKeys) := by
  intro claimed
  have same := claimed forging .null true (fun _ listed => absurd listed List.not_mem_nil)
    "steps.parse.errors" ⟨"parse.errors", rfl⟩
  have seen := congrArg Option.isSome same
  revert seen
  decide

end Example

end Vetting
