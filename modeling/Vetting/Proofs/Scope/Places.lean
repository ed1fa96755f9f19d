import Mathlib.Data.List.Lex
import Vetting.Scope.Flatten

/-!
Contract: the places of a document and what it holds at each of them.

Owns:
- the value at a place, which is reached by keys of objects and positions of arrays;
- the order in which the places of a document are written down;
- the walk through a document, which meets every place once and in that order.

Does not own: the text of a path, and which places have names.

A place is stricter than the steps of a path: a position never selects an entry of an object.
-/

namespace Vetting

namespace Dictionary

universe u

variable {α : Type u} {entries : List (String × α)}

theorem Sorted.apart (sorted : Sorted entries) :
    entries.Pairwise fun first second => first.1 ≠ second.1 :=
  List.Pairwise.imp (fun before => String.ne_of_lt before) sorted

/-- Where no two entries share a key, a look-up finds any entry. -/
theorem lookup?_eq_some_iff (apart : entries.Pairwise fun first second => first.1 ≠ second.1)
    {key : String} {value : α} : lookup? key entries = some value ↔ (key, value) ∈ entries := by
  induction entries with
  | nil => simp
  | cons entry rest inductionHypothesis =>
    obtain ⟨name, held⟩ := entry
    obtain ⟨first, apartRest⟩ := List.pairwise_cons.mp apart
    rw [lookup?, List.mem_cons, Prod.mk.injEq]
    by_cases same : name = key
    · subst same
      have absent : (name, value) ∉ rest := fun member => first _ member rfl
      simp [absent, eq_comm]
    · have other : key ≠ name := fun alike => same alike.symm
      simp [same, other, inductionHypothesis apartRest]

end Dictionary

end Vetting

namespace Vetting.Scope

open Json (Value)
open Document (Step)

/-! ### Places -/

/-- The value one step below: the entry of a key, or the item at a position. -/
def below? : Step → Value → Option Value
  | .key name, .object entries => Dictionary.lookup? name entries
  | .index position, .array items => items[position]?
  | _, _ => none

/-- The value at the place that steps lead to. -/
def valueAt? : List Step → Value → Option Value
  | [], document => some document
  | step :: rest, document => (below? step document).bind (valueAt? rest)

/-- The order of two entries of an object, or of two items of an array. -/
def Earlier : Step → Step → Prop
  | .key first, .key second => first < second
  | .index first, .index second => first < second
  | _, _ => False

/-- The order in which places are written down: a value before its parts. -/
def Before : List Step → List Step → Prop := List.Lex Earlier

instance : Std.Asymm Earlier where
  asymm := by
    rintro (first | first) (second | second) earlier later
    · exact String.lt_asymm earlier later
    · exact earlier
    · exact earlier
    · exact Nat.lt_asymm earlier later

theorem Before.asymm {first second : List Step} (before : Before first second) :
    ¬ Before second first :=
  Std.Asymm.asymm (r := List.Lex Earlier) first second before

theorem Before.ne {first second : List Step} (before : Before first second) : first ≠ second := by
  rintro rfl
  exact before.asymm before

theorem valueAt?_append (first second : List Step) (document : Value) :
    valueAt? (first ++ second) document = (valueAt? first document).bind (valueAt? second) := by
  induction first generalizing document with
  | nil => rfl
  | cons step rest inductionHypothesis =>
    rw [List.cons_append, valueAt?, valueAt?, Option.bind_assoc]
    exact congrArg _ (funext inductionHypothesis)

/-! ### The parts of a value -/

/-- The parts one step below, in their order. -/
def parts : Value → List (Step × Value)
  | .object entries => entries.map fun entry => (.key entry.1, entry.2)
  | .array items => items.zipIdx.map fun item => (.index item.2, item.1)
  | _ => []

theorem mem_parts_iff {document : Value} (proper : document.Proper) {step : Step} {value : Value} :
    (step, value) ∈ parts document ↔ below? step document = some value := by
  cases document with
  | object entries =>
    cases step with
    | key name => simp [parts, below?, Dictionary.lookup?_eq_some_iff proper.1.apart]
    | index position => simp [parts, below?]
  | array items =>
    cases step with
    | key name => simp [parts, below?]
    | index position => simp [parts, below?, List.mem_zipIdx_iff_getElem?]
  | null | boolean | number | text => cases step <;> simp [parts, below?]

theorem parts_pairwise {document : Value} (proper : document.Proper) :
    (parts document).Pairwise fun first second => Earlier first.1 second.1 := by
  cases document with
  | object entries => exact List.pairwise_map.mpr proper.1
  | array items =>
    have positions : (items.zipIdx.map Prod.snd).Pairwise (· < ·) := by
      rw [List.zipIdx_map_snd]
      exact List.pairwise_lt_range'
    have apart := List.pairwise_map.mp positions
    exact List.pairwise_map.mpr apart
  | null | boolean | number | text => exact .nil

theorem sizeOf_lt_of_mem_parts {document : Value} {part : Step × Value}
    (member : part ∈ parts document) : sizeOf part.2 < sizeOf document := by
  cases document with
  | object entries =>
    obtain ⟨⟨name, value⟩, inside, rfl⟩ := List.mem_map.mp member
    have smaller := List.sizeOf_lt_of_mem inside
    simp only [Prod.mk.sizeOf_spec, Value.object.sizeOf_spec] at smaller ⊢
    omega
  | array items =>
    obtain ⟨item, inside, rfl⟩ := List.mem_map.mp member
    have smaller := List.sizeOf_lt_of_mem (List.fst_mem_of_mem_zipIdx inside)
    simp only [Value.array.sizeOf_spec]
    omega
  | null | boolean | number | text => cases member

/-- What holds of a value whenever it holds of its parts holds of every value. -/
theorem parts_induction {motive : Value → Prop}
    (build : ∀ document, (∀ part ∈ parts document, motive part.2) → motive document)
    (document : Value) : motive document :=
  build document fun part _ => parts_induction build part.2
termination_by document
decreasing_by exact sizeOf_lt_of_mem_parts ‹_›

theorem Proper.of_mem_entries {entries : List (String × Value)} {entry : String × Value}
    (proper : Value.ProperEntries entries) (member : entry ∈ entries) : entry.2.Proper := by
  induction entries with
  | nil => cases member
  | cons first rest inductionHypothesis =>
    cases member with
    | head => exact proper.1
    | tail _ later => exact inductionHypothesis proper.2 later

theorem Proper.of_mem_items {items : List Value} {item : Value}
    (proper : Value.ProperItems items) (member : item ∈ items) : item.Proper := by
  induction items with
  | nil => cases member
  | cons first rest inductionHypothesis =>
    cases member with
    | head => exact proper.1
    | tail _ later => exact inductionHypothesis proper.2 later

theorem Proper.of_mem_parts {document : Value} {part : Step × Value} (proper : document.Proper)
    (member : part ∈ parts document) : part.2.Proper := by
  cases document with
  | object entries =>
    obtain ⟨entry, inside, rfl⟩ := List.mem_map.mp member
    exact Proper.of_mem_entries proper.2 inside
  | array items =>
    obtain ⟨item, inside, rfl⟩ := List.mem_map.mp member
    exact Proper.of_mem_items proper (List.fst_mem_of_mem_zipIdx inside)
  | null | boolean | number | text => cases member

/-! ### The walk through a document -/

/-- A part as it is seen from one step above. -/
def under (step : Step) (part : List Step × Value) : List Step × Value := (step :: part.1, part.2)

mutual

/-- The places of a document with what it holds there. -/
def walk : Value → List (List Step × Value)
  | .object entries => ([], .object entries) :: walkEntries entries
  | .array items => ([], .array items) :: walkItems 0 items
  | scalar => [([], scalar)]

def walkEntries : List (String × Value) → List (List Step × Value)
  | [] => []
  | (key, value) :: rest => (walk value).map (under (.key key)) ++ walkEntries rest

/-- The walk through items of which the first stands at the given position. -/
def walkItems (position : Nat) : List Value → List (List Step × Value)
  | [] => []
  | item :: rest => (walk item).map (under (.index position)) ++ walkItems (position + 1) rest

end

theorem walkEntries_eq (entries : List (String × Value)) :
    walkEntries entries = entries.flatMap fun entry => (walk entry.2).map (under (.key entry.1)) := by
  induction entries with
  | nil => rfl
  | cons entry rest inductionHypothesis =>
    rw [walkEntries, inductionHypothesis, List.flatMap_cons]

theorem walkItems_eq (position : Nat) (items : List Value) :
    walkItems position items =
      (items.zipIdx position).flatMap fun item => (walk item.1).map (under (.index item.2)) := by
  induction items generalizing position with
  | nil => rfl
  | cons item rest inductionHypothesis =>
    rw [walkItems, inductionHypothesis, List.zipIdx_cons, List.flatMap_cons]

/-- The walk through a value meets the value itself and then walks through its parts. -/
theorem walk_eq (document : Value) :
    walk document =
      ([], document) :: (parts document).flatMap fun part => (walk part.2).map (under part.1) := by
  cases document with
  | object entries => rw [walk, walkEntries_eq, parts, List.flatMap_map]
  | array items => rw [walk, walkItems_eq, parts, List.flatMap_map]
  | null | boolean | number | text => rfl

theorem mem_map_under_iff {step : Step} {place : List Step} {value : Value}
    {walked : List (List Step × Value)} :
    (place, value) ∈ walked.map (under step) ↔
      ∃ rest, place = step :: rest ∧ (rest, value) ∈ walked := by
  constructor
  · intro member
    obtain ⟨⟨rest, inner⟩, inside, same⟩ := List.mem_map.mp member
    obtain ⟨rfl, rfl⟩ := Prod.mk.inj same
    exact ⟨rest, rfl, inside⟩
  · rintro ⟨rest, rfl, inside⟩
    exact List.mem_map.mpr ⟨(rest, value), inside, rfl⟩

/-- The walk meets exactly the places at which there is a value. -/
theorem mem_walk_iff {document : Value} (proper : document.Proper) {place : List Step}
    {value : Value} : (place, value) ∈ walk document ↔ valueAt? place document = some value := by
  induction document using parts_induction generalizing place value with
  | build document inductionHypothesis =>
    rw [walk_eq, List.mem_cons, List.mem_flatMap]
    simp only [mem_map_under_iff]
    cases place with
    | nil => simp [valueAt?, eq_comm]
    | cons step rest =>
      rw [valueAt?, Option.bind_eq_some_iff]
      constructor
      · rintro (isRoot | ⟨⟨step, inner⟩, member, _, same, inside⟩)
        · cases isRoot
        · obtain ⟨rfl, rfl⟩ := List.cons.inj same
          exact ⟨inner, (mem_parts_iff proper).mp member,
            (inductionHypothesis _ member (Proper.of_mem_parts proper member)).mp inside⟩
      · rintro ⟨inner, found, onward⟩
        have member := (mem_parts_iff proper).mpr found
        exact .inr ⟨(step, inner), member, rest, rfl,
          (inductionHypothesis _ member (Proper.of_mem_parts proper member)).mpr onward⟩

/-- The walk meets the places in their order. -/
theorem walk_pairwise {document : Value} (proper : document.Proper) :
    (walk document).Pairwise fun first second => Before first.1 second.1 := by
  induction document using parts_induction with
  | build document inductionHypothesis =>
    rw [walk_eq, List.pairwise_cons, List.pairwise_flatMap]
    refine ⟨?_, ?_, ?_⟩
    · intro part inside
      obtain ⟨_, _, inside⟩ := List.mem_flatMap.mp inside
      obtain ⟨_, _, rfl⟩ := List.mem_map.mp inside
      exact .nil
    · intro part member
      refine List.pairwise_map.mpr ?_
      exact (inductionHypothesis part member (Proper.of_mem_parts proper member)).imp .cons
    · refine (parts_pairwise proper).imp fun earlier => ?_
      intro first insideFirst second insideSecond
      obtain ⟨_, _, rfl⟩ := List.mem_map.mp insideFirst
      obtain ⟨_, _, rfl⟩ := List.mem_map.mp insideSecond
      exact .rel earlier

end Vetting.Scope
