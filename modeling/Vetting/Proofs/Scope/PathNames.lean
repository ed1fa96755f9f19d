import Vetting.Proofs.Document.Keys
import Vetting.Proofs.Json.Compact
import Vetting.Proofs.Scope.Sources
import Vetting.Rule.Comparison

/-!
Contract: the flattened names of a document, read as paths into it.

Owns:
- the steps that a path spells so that they are read back, and documents with such steps only;
- the path of a place, and that different places have different paths;
- that a name of the document and its path stand for the same value, also in an operator rule.

Does not own: groups in brackets, which no name holds, and names from other sources than the document.

The name of the document itself is no path.
-/

namespace Vetting.Scope

open Json (Value)
open Document (Step PlainKey pathOf headStep descend? child? resolve? unsigned?)

/-! ### Plain steps -/

/-- A step that a path spells so that it is read back: a key that can stand between dots and does not
read as a number, or a position of 64 bits. -/
def PlainStep : Step → Prop
  | .key name => PlainKey name ∧ unsigned? name.toList = none
  | .index position => position < Width.count 64

instance : DecidablePred PlainStep
  | .key _ => inferInstanceAs (Decidable (_ ∧ _))
  | .index position => inferInstanceAs (Decidable (position < Width.count 64))

/-- All keys in a document are plain, and no array is longer than 64 bits can count. -/
def PlainThroughout (document : Value) : Prop :=
  ∀ place value, valueAt? place document = some value → ∀ step ∈ place, PlainStep step

theorem plainThroughout_iff {document : Value} (proper : document.Proper) :
    PlainThroughout document ↔ ∀ part ∈ walk document, ∀ step ∈ part.1, PlainStep step := by
  simp only [PlainThroughout, Prod.forall, mem_walk_iff proper]

/-- The path of a place. -/
def pathText (place : List Step) : String := pathOf (place.map stepText)

namespace PlainStep

variable {step : Step}

theorem plainKey (plain : PlainStep step) : PlainKey (stepText step) := by
  cases step with
  | key name => exact plain.1
  | index position => exact Document.plainKey_toString position

/-- A plain step is read back from its text. -/
theorem headStep_stepText (plain : PlainStep step) : headStep (stepText step).toList = step := by
  cases step with
  | key name =>
    change headStep name.toList = _
    rw [headStep, plain.2, String.ofList_toList]
  | index position =>
    change headStep (toString position).toList = _
    rw [headStep, Document.unsigned?_toString plain]

end PlainStep

section Paths

variable {place : List Step}

theorem plainKey_of_mem (plain : ∀ step ∈ place, PlainStep step) :
    ∀ key ∈ place.map stepText, PlainKey key := by
  intro key member
  obtain ⟨step, inside, rfl⟩ := List.mem_map.mp member
  exact (plain step inside).plainKey

theorem map_headStep (plain : ∀ step ∈ place, PlainStep step) :
    (place.map stepText).map (fun text => headStep text.toList) = place := by
  rw [List.map_map]
  exact (List.map_congr_left fun step member => (plain step member).headStep_stepText).trans
    (List.map_id place)

/-- A path is a descent by the steps of its place. -/
theorem resolve?_pathText (plain : ∀ step ∈ place, PlainStep step) (document : Value) :
    resolve? document (pathText place) = descend? place document := by
  by_cases empty : place = []
  · subst empty
    rfl
  · rw [pathText, Document.resolve?_pathOf (by simpa using empty) (plainKey_of_mem plain),
      map_headStep plain]

/-- A path of plain steps is read back; the empty path has no steps to read. -/
theorem steps?_pathText (plain : ∀ step ∈ place, PlainStep step) :
    (Document.steps? (pathText place).toList).getD [] = place := by
  by_cases empty : place = []
  · subst empty
    rfl
  · have keys := plainKey_of_mem plain
    rw [Document.steps?, pathText, Document.cutAt_pathOf (by simpa using empty) keys,
      Document.parts?_of_plain keys, map_headStep plain, Option.getD_some]

/-- Different places have different paths. -/
theorem pathText_injective {other : List Step} (plain : ∀ step ∈ place, PlainStep step)
    (plainOther : ∀ step ∈ other, PlainStep step) (same : pathText place = pathText other) :
    place = other := by
  rw [← steps?_pathText plain, same, steps?_pathText plainOther]

theorem pathText_cons (step : Step) (nonempty : place ≠ []) :
    pathText (step :: place) = stepText step ++ "." ++ pathText place := by
  obtain ⟨next, rest, rfl⟩ := List.exists_cons_of_ne_nil nonempty
  rfl

/-- The flattened name of a place is its path, after the name of the document. -/
theorem nameOf_eq (root : String) (nonempty : place ≠ []) :
    nameOf root place = root ++ "." ++ pathText place := by
  induction place generalizing root with
  | nil => exact absurd rfl nonempty
  | cons step rest inductionHypothesis =>
    by_cases last : rest = []
    · subst last
      rfl
    · have further : nameOf root (step :: rest) = nameOf (root ++ "." ++ stepText step) rest := rfl
      rw [further, inductionHypothesis _ last, pathText_cons step last]
      simp only [String.append_assoc]

end Paths

/-! ### Descents in plain documents -/

/-- What is at a position is in an array. -/
theorem exists_array_of_valueAt? {document value : Value} {place : List Step} {position : Nat}
    (found : valueAt? (place ++ [.index position]) document = some value) :
    ∃ items, valueAt? place document = some (.array items) := by
  rw [valueAt?_append] at found
  obtain ⟨holder, isHolder, inside⟩ := Option.bind_eq_some_iff.mp found
  cases holder with
  | array items => exact ⟨items, isHolder⟩
  | null | boolean | number | text | object => cases inside

section Descents

variable {document value : Value} {place : List Step}

theorem plain_of_valueAt? (plain : PlainThroughout document)
    (found : valueAt? place document = some value) : PlainThroughout value := by
  intro rest inner onward step member
  refine plain (place ++ rest) inner ?_ step (List.mem_append_right _ member)
  rw [valueAt?_append, found]
  exact onward

/-- In a plain document a position is never the key of an entry. -/
theorem child?_eq_below? (plain : PlainThroughout document) {step : Step}
    (plainStep : PlainStep step) : child? step document = below? step document := by
  cases step with
  | key name => cases document <;> rfl
  | index position =>
    cases document with
    | object entries =>
      have noKey : Dictionary.lookup? (toString position) entries = none := by
        refine Option.eq_none_iff_forall_ne_some.mpr fun value found => ?_
        have reached : valueAt? [.key (toString position)] (.object entries) = some value := by
          simpa [valueAt?, below?] using found
        have isKey := (plain _ _ reached _ List.mem_cons_self).2
        rw [Document.unsigned?_toString plainStep] at isKey
        cases isKey
      exact noKey
    | null | boolean | number | text | array => rfl

/-- In a plain document plain steps lead to the value at their place. -/
theorem descend?_eq_valueAt? (plain : PlainThroughout document)
    (plainPlace : ∀ step ∈ place, PlainStep step) :
    descend? place document = valueAt? place document := by
  induction place generalizing document with
  | nil => rfl
  | cons step rest inductionHypothesis =>
    obtain ⟨plainStep, plainRest⟩ := List.forall_mem_cons.mp plainPlace
    rw [Document.descend?, valueAt?, child?_eq_below? plain plainStep]
    cases found : below? step document with
    | none => rfl
    | some inner =>
      have reached : valueAt? [step] document = some inner := by simp [valueAt?, found]
      exact inductionHypothesis (plain_of_valueAt? plain reached) plainRest

/-- A path leads to the value at its place. -/
theorem resolve?_eq_valueAt? (plain : PlainThroughout document)
    (plainPlace : ∀ step ∈ place, PlainStep step) :
    resolve? document (pathText place) = valueAt? place document := by
  rw [resolve?_pathText plainPlace, descend?_eq_valueAt? plain plainPlace]

end Descents

/-! ### Names and paths -/

/-- What the names of a document have in common with paths into it: a path that a name spells leads to
the value of the name; a path of plain steps that leads to an array, or to a scalar outside arrays, is
spelled by a name; different paths by different names; and a rule need not tell names from paths. -/
structure NamesFollowPaths (document : Value) (names : Names) : Prop where
  leads : ∀ path value, Dictionary.lookup? (documentRoot ++ "." ++ path) names = some value →
    resolve? document path = some value
  named : ∀ place value, place ≠ [] → (∀ step ∈ place, PlainStep step) →
    resolve? document (pathText place) = some value →
    ((∃ items, value = .array items) ∨ isContainer value = false ∧
      ∀ items, resolve? document (pathText place.dropLast) ≠ some (.array items)) →
    Dictionary.lookup? (documentRoot ++ "." ++ pathText place) names = some value
  apart : ∀ place other, (∀ step ∈ place, PlainStep step) → (∀ step ∈ other, PlainStep step) →
    place ≠ other → documentRoot ++ "." ++ pathText place ≠ documentRoot ++ "." ++ pathText other
  target : ∀ target, target ≠ documentRoot →
    Rule.target? target names document = resolve? document (Rule.barePath target)

theorem barePath_path (path : String) : Rule.barePath (documentRoot ++ "." ++ path) = path := by
  rw [Rule.barePath, Text.afterText?, String.toList_append (s := documentRoot ++ "."),
    Text.after?_append, Option.map_some, String.ofList_toList, Option.getD_some]

theorem ne_name_of_path (root path : String) : root ++ "." ++ path ≠ root := by
  intro same
  have lengths := congrArg String.length same
  simp only [String.length_append] at lengths
  have dot : ".".length = 1 := rfl
  omega

/-- The names of a document alone. -/
theorem lookup?_names_document {document : Value} (proper : document.Proper) (stage : Rule.Stage)
    {name : String} {value : Value} :
    Dictionary.lookup? name (StageInput.names ⟨stage, document, [], []⟩ false) = some value ↔
      FlattenedAs documentRoot document name value := by
  have noSignal : Source.value? name (.flat signalRoot (.object [])) = none := rfl
  have sources : (StageInput.sources ⟨stage, document, [], []⟩ false).reverse =
      [.flat signalRoot (.object []), .flat documentRoot document] := rfl
  rw [StageInput.lookup?_names, sources, StageInput.findSome?_value?_cons, noSignal,
    Option.none_or, StageInput.findSome?_value?_cons, List.findSome?_nil, Option.or_none]
  exact lookup?_flattened_iff proper

section Plain

variable {document : Value} (plain : PlainThroughout document)
include plain

/-- A place of a plain document has a name of its own. -/
theorem flattenedAs_iff {root : String} {place : List Step} {value : Value} (nonempty : place ≠ [])
    (plainPlace : ∀ step ∈ place, PlainStep step) :
    FlattenedAs root document (root ++ "." ++ pathText place) value ↔
      Exposed document place value := by
  have only : ∀ other held, Exposed document other held →
      nameOf root other = root ++ "." ++ pathText place → other = place := by
    intro other held exposed named
    have plainOther := plain other held exposed.found
    by_cases empty : other = []
    · subst empty
      exact absurd named.symm (ne_name_of_path root _)
    · rw [nameOf_eq root empty, String.append_right_inj] at named
      exact pathText_injective plainOther plainPlace named
  constructor
  · rintro ⟨other, exposed, named, -⟩
    exact only other value exposed named ▸ exposed
  · intro exposed
    exact ⟨place, exposed, nameOf_eq root nonempty,
      fun other held exposedOther named => .inl (only other held exposedOther named)⟩

/-- A name that is longer than that of the document spells the path of a place. -/
theorem exists_place_of_flattenedAs {root name : String} {value : Value}
    (flattened : FlattenedAs root document name value) (longer : name ≠ root) :
    ∃ place, name = root ++ "." ++ pathText place ∧
      resolve? document (pathText place) = some value := by
  obtain ⟨place, exposed, rfl, -⟩ := flattened
  have nonempty : place ≠ [] := by
    rintro rfl
    exact longer rfl
  refine ⟨place, nameOf_eq root nonempty, ?_⟩
  rw [resolve?_eq_valueAt? plain (plain place value exposed.found)]
  exact exposed.found

end Plain

/-- In a document with plain keys only, names and paths agree. -/
theorem namesFollowPaths {document : Value} (proper : document.Proper)
    (plain : PlainThroughout document) (stage : Rule.Stage) :
    NamesFollowPaths document (StageInput.names ⟨stage, document, [], []⟩ false) where
  leads := by
    intro path value found
    have flattened := (lookup?_names_document proper stage).mp found
    obtain ⟨place, same, leads⟩ := exists_place_of_flattenedAs plain flattened (ne_name_of_path _ _)
    rw [(String.append_right_inj _).mp same]
    exact leads
  named := by
    intro place value nonempty plainPlace leads shape
    rw [resolve?_eq_valueAt? plain plainPlace] at leads
    refine (lookup?_names_document proper stage).mpr
      ((flattenedAs_iff plain nonempty plainPlace).mpr ⟨leads, ?_, ?_⟩)
    · rintro entries rfl
      rcases shape with ⟨_, isArray⟩ | ⟨scalar, -⟩
      · cases isArray
      · cases scalar
    · intro scalar position last
      obtain ⟨init, rfl⟩ := List.getLast?_eq_some_iff.mp last
      obtain ⟨items, isArray⟩ := exists_array_of_valueAt? leads
      rcases shape with ⟨_, rfl⟩ | ⟨-, noArray⟩
      · cases scalar
      · rw [List.dropLast_concat] at noArray
        refine noArray items ?_
        rw [resolve?_eq_valueAt? plain fun step member =>
          plainPlace step (List.mem_append_left _ member)]
        exact isArray
  apart := by
    intro place other plainPlace plainOther different same
    exact different (pathText_injective plainPlace plainOther ((String.append_right_inj _).mp same))
  target := by
    intro target notRoot
    unfold Rule.target?
    cases found : Dictionary.lookup? target (StageInput.names ⟨stage, document, [], []⟩ false) with
    | none => rfl
    | some value =>
      have flattened := (lookup?_names_document proper stage).mp found
      obtain ⟨place, rfl, leads⟩ := exists_place_of_flattenedAs plain flattened notRoot
      rw [barePath_path]
      exact leads.symm

end Vetting.Scope

namespace Vetting.Example

open Scope Json

/-- A document with objects and a number in an array. -/
def inventory : Value :=
  .object [("rows", .array [.object [("id", .text "a"), ("tags", .array [.text "x"])],
    .number (.integer 2)]), ("size", .number (.integer 3))]

theorem proper_inventory : inventory.Proper := by
  have inOrder : "rows" < "size" ∧ "id" < "tags" := by decide
  have small : Number.IntegerInRange 2 ∧ Number.IntegerInRange 3 := by decide
  simpa [inventory, Value.Proper, Value.ProperEntries, Value.ProperItems, Dictionary.Sorted,
    Number.Proper, small] using inOrder

/-- The identifier of the first row has a name, and the path in the name leads to it. -/
theorem resolve?_inventory : inventory.Proper ∧ PlainThroughout inventory ∧
    Document.resolve? inventory "rows.0.id" = some (.text "a") := by
  have plain : PlainThroughout inventory := (plainThroughout_iff proper_inventory).mpr (by decide)
  exact ⟨proper_inventory, plain,
    (namesFollowPaths proper_inventory plain .input).leads "rows.0.id" _ rfl⟩

end Vetting.Example
