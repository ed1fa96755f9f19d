import Mathlib.Data.String.Basic
import Vetting.Proofs.Scope.PlaceNames

/-!
Contract: the sources of the names that a stage sees, and which of them wins.

Owns:
- the sources in their order: bare keys, the document, the catalog entries of the stage, signals;
- what each of them says of a name;
- that a name has the value that the last source gives which defines it, and is absent if none does.

Does not own: how places of a document are named (`Vetting.Proofs.Scope.PlaceNames`).

The signals of earlier steps are a document as well: an object of steps, each an object of its signals.
-/

namespace Vetting

namespace Dictionary

universe u

variable {α : Type u}

/-- Inserting keeps the keys increasing. -/
theorem sorted_insert {key : String} {value : α} {entries : List (String × α)}
    (sorted : Sorted entries) : Sorted (insert key value entries) := by
  induction entries with
  | nil => exact List.pairwise_singleton _ _
  | cons entry rest inductionHypothesis =>
    obtain ⟨name, old⟩ := entry
    obtain ⟨first, sortedRest⟩ := List.pairwise_cons.mp sorted
    by_cases same : key = name
    · subst same
      rw [insert, if_pos rfl]
      exact List.pairwise_cons.mpr ⟨first, sortedRest⟩
    · rw [insert, if_neg same]
      by_cases before : key < name
      · rw [if_pos before]
        refine List.pairwise_cons.mpr ⟨fun other member => ?_, sorted⟩
        rcases List.mem_cons.mp member with rfl | later
        · exact before
        · exact String.lt_trans before (first other later)
      · rw [if_neg before]
        refine List.pairwise_cons.mpr ⟨fun other member => ?_, inductionHypothesis sortedRest⟩
        rcases mem_of_insert member with rfl | later
        · exact lt_of_le_of_ne (not_lt.mp before) (Ne.symm same)
        · exact first other later

theorem sorted_merge {first second : List (String × α)} (sorted : Sorted first) :
    Sorted (merge first second) := by
  induction second generalizing first with
  | nil => exact sorted
  | cons entry rest inductionHypothesis => exact inductionHypothesis (sorted_insert sorted)

theorem sorted_ofEntries (entries : List (String × α)) : Sorted (ofEntries entries) :=
  sorted_merge .nil

/-- In which order a table is searched makes no difference. -/
theorem lookup?_reverse_ofEntries (name : String) (entries : List (String × α)) :
    lookup? name (ofEntries entries).reverse = lookup? name (ofEntries entries) := by
  have apart := Sorted.apart (sorted_ofEntries entries)
  refine Option.ext fun value => ?_
  rw [lookup?_eq_some_iff apart, lookup?_eq_some_iff, List.mem_reverse]
  exact List.pairwise_reverse.mpr (apart.imp Ne.symm)

end Dictionary

namespace Scope

open Json (Value)
open Rule (CatalogEntry)

/-! ### Sources -/

/-- Where the value of a name may come from: a key on its own, a flattened document, or an entry that
is listed in the catalog. -/
inductive Source where
  | bare (document : Value)
  | flat (root : String) (document : Value)
  | listed (document : Value) (entry : CatalogEntry)

namespace Source

/-- What a source says of a name: a key that the document uses once and that is no flattened name of
it; a flattened name; or an entry of this name, with null for a required place that does not exist. -/
def Defines (name : String) (value : Value) : Source → Prop
  | .bare document =>
    (¬ ∃ held, FlattenedAs documentRoot document name held) ∧ HeldOnce document name value
  | .flat root document => FlattenedAs root document name value
  | .listed document entry => entry.name = name ∧
    (Document.resolve? document entry.path = some value ∨
      Document.resolve? document entry.path = none ∧ entry.required = true ∧ value = .null)

/-- What a source is found to say of a name. -/
def value? (name : String) : Source → Option Value
  | .bare document =>
    if (Dictionary.lookup? name (flattened documentRoot document).reverse).isSome then none
    else Dictionary.lookup? name (Dictionary.ofEntries (unambiguous (leaves document)))
  | .flat root document => Dictionary.lookup? name (flattened root document).reverse
  | .listed document entry =>
    if entry.name = name then
      (Document.resolve? document entry.path).or (if entry.required then some .null else none)
    else none

/-- The document of a source. -/
def document : Source → Value
  | .bare document | .flat _ document | .listed document _ => document

theorem value?_eq_some_iff {source : Source} (proper : source.document.Proper) {name : String}
    {value : Value} : source.value? name = some value ↔ source.Defines name value := by
  cases source with
  | flat root document => exact lookup?_flattened_iff proper
  | listed document entry =>
    rw [value?, Defines]
    by_cases same : entry.name = name
    · rw [if_pos same]
      cases Document.resolve? document entry.path <;> cases entry.required <;>
        simp [same, eq_comm]
    · simp [same]
  | bare document =>
    have named : (∃ held, FlattenedAs documentRoot document name held) ↔
        (Dictionary.lookup? name (flattened documentRoot document).reverse).isSome = true := by
      rw [Option.isSome_iff_exists]
      exact exists_congr fun held => (lookup?_flattened_iff proper).symm
    have once : Dictionary.lookup? name (Dictionary.ofEntries (unambiguous (leaves document))) =
        some value ↔ HeldOnce document name value := by
      rw [Dictionary.lookup?_ofEntries_iff fun _ first _ second => eq_of_unambiguous first second]
      exact mem_unambiguous_iff proper
    rw [value?, Defines, named, ← once]
    split <;> simp [*]

end Source

namespace StageInput

/-- The signals of all steps as one document. -/
def signalDocument (input : StageInput) : Value :=
  .object (input.signals.map fun step => (step.1, .object step.2))

/-- Document and signals as a reader produces them. -/
structure Proper (input : StageInput) : Prop where
  payload : input.payload.Proper
  signals : input.signalDocument.Proper

/-- The sources of names, a later one winning over those before it. -/
def sources (input : StageInput) (bareKeys : Bool) : List Source :=
  (if bareKeys then [.bare input.payload] else []) ++
    .flat documentRoot input.payload ::
      ((input.catalog.filter fun entry => entry.stage = input.stage).map
        (Source.listed input.payload) ++
      [.flat signalRoot input.signalDocument])

/-! ### The last source that defines a name -/

theorem signalNames_eq (input : StageInput) :
    input.signalNames = flattened signalRoot input.signalDocument := by
  rw [signalDocument, flattened, flattenedEntries_eq, List.flatMap_map]
  refine List.flatMap_congr fun step _ => ?_
  rw [flattened, flattenedEntries_eq]

theorem lookup?_catalogName? (input : StageInput) (entry : CatalogEntry) (name : String) :
    Dictionary.lookup? name (input.catalogName? entry).toList =
      if entry.stage = input.stage then (Source.listed input.payload entry).value? name else none := by
  unfold catalogName?
  by_cases ofStage : entry.stage = input.stage
  · rw [if_pos ofStage, if_pos ofStage, Source.value?]
    cases Document.resolve? input.payload entry.path <;> cases entry.required <;>
      simp [Dictionary.lookup?]
  · rw [if_neg ofStage, if_neg ofStage]
    rfl

/-- The names of the catalog come from its entries of the stage, the last one winning. -/
theorem lookup?_catalogNames_reverse (input : StageInput) (name : String) :
    Dictionary.lookup? name input.catalogNames.reverse =
      ((input.catalog.filter fun entry => entry.stage = input.stage).map
        (Source.listed input.payload)).reverse.findSome? (Source.value? name) := by
  unfold catalogNames
  induction input.catalog with
  | nil => rfl
  | cons entry rest inductionHypothesis =>
    have own := lookup?_catalogName? input entry name
    have atEnd : Dictionary.lookup? name ((entry :: rest).filterMap input.catalogName?).reverse =
        (Dictionary.lookup? name (rest.filterMap input.catalogName?).reverse).or
          (Dictionary.lookup? name (input.catalogName? entry).toList) := by
      rw [← Dictionary.lookup?_append, List.filterMap_cons]
      cases input.catalogName? entry <;> simp
    rw [atEnd, inductionHypothesis, own, List.filter_cons]
    by_cases ofStage : entry.stage = input.stage
    · simp [ofStage, List.findSome?_append]
    · simp [ofStage]

theorem findSome?_value?_cons (name : String) (source : Source) (rest : List Source) :
    (source :: rest).findSome? (Source.value? name) =
      (source.value? name).or (rest.findSome? (Source.value? name)) := by
  rw [List.findSome?_cons]
  cases source.value? name <;> rfl

/-- A look-up asks the sources from the last one on. -/
theorem lookup?_names (input : StageInput) (bareKeys : Bool) (name : String) :
    Dictionary.lookup? name (input.names bareKeys) =
      (input.sources bareKeys).reverse.findSome? (Source.value? name) := by
  have isDocument : Dictionary.lookup? name input.documentNames.reverse =
      (Source.flat documentRoot input.payload).value? name := by
    rw [documentNames, Dictionary.lookup?_reverse_ofEntries, Dictionary.lookup?_ofEntries]
    rfl
  have isSignal : Dictionary.lookup? name input.signalNames.reverse =
      (Source.flat signalRoot input.signalDocument).value? name := by
    rw [signalNames_eq]
    rfl
  have isBare : ((Source.flat documentRoot input.payload).value? name).or
      (Dictionary.lookup? name input.bareNames) =
        ((Source.flat documentRoot input.payload).value? name).or
          ((Source.bare input.payload).value? name) := by
    rw [Source.value?, Source.value?, bareNames]
    cases Dictionary.lookup? name (flattened documentRoot input.payload).reverse <;> rfl
  unfold names sources
  rw [Dictionary.lookup?_merge, Dictionary.lookup?_merge, Dictionary.lookup?_merge, isDocument,
    isSignal, lookup?_catalogNames_reverse]
  cases bareKeys with
  | false => simp [findSome?_value?_cons, List.findSome?_append]
  | true => simp [findSome?_value?_cons, List.findSome?_append, isBare]

theorem proper_of_mem_sources {input : StageInput} (proper : input.Proper) {bareKeys : Bool}
    {source : Source} (member : source ∈ input.sources bareKeys) : source.document.Proper := by
  rcases List.mem_append.mp member with bare | member
  · have isBare : source = .bare input.payload := by
      cases bareKeys with
      | false => cases bare
      | true => exact List.mem_singleton.mp bare
    exact isBare ▸ proper.payload
  rcases List.mem_cons.mp member with rfl | member
  · exact proper.payload
  rcases List.mem_append.mp member with listed | signals
  · obtain ⟨entry, _, rfl⟩ := List.mem_map.mp listed
    exact proper.payload
  · exact List.mem_singleton.mp signals ▸ proper.signals

/-- A name has the value given by the last source that defines it, and is absent if none does. -/
theorem lookup?_names_iff {input : StageInput} (proper : input.Proper) (bareKeys : Bool)
    (name : String) :
    (∀ value, Dictionary.lookup? name (input.names bareKeys) = some value ↔
      ∃ before source after, input.sources bareKeys = before ++ source :: after ∧
        source.Defines name value ∧ ∀ later ∈ after, ∀ other, ¬ later.Defines name other) ∧
    (Dictionary.lookup? name (input.names bareKeys) = none ↔
      ∀ source ∈ input.sources bareKeys, ∀ value, ¬ source.Defines name value) := by
  have gives : ∀ source ∈ input.sources bareKeys, ∀ value,
      source.value? name = some value ↔ source.Defines name value :=
    fun source member _ => Source.value?_eq_some_iff (proper_of_mem_sources proper member)
  have givesNone : ∀ source ∈ input.sources bareKeys,
      source.value? name = none ↔ ∀ value, ¬ source.Defines name value := by
    intro source member
    rw [Option.eq_none_iff_forall_ne_some]
    exact forall_congr' fun value => not_congr (gives source member value)
  rw [lookup?_names]
  refine ⟨fun value => ?_, ?_⟩
  · rw [List.findSome?_eq_some_iff]
    constructor
    · rintro ⟨later, source, earlier, parts, found, nothing⟩
      have inOrder : input.sources bareKeys = earlier.reverse ++ source :: later.reverse := by
        rw [← List.reverse_reverse (input.sources bareKeys), parts]
        simp
      refine ⟨earlier.reverse, source, later.reverse, inOrder, ?_, fun other member => ?_⟩
      · exact (gives source (by simp [inOrder]) value).mp found
      · have listed : other ∈ input.sources bareKeys := by
          rw [inOrder]
          exact List.mem_append_right _ (List.mem_cons_of_mem _ member)
        exact (givesNone other listed).mp (nothing other (List.mem_reverse.mp member))
    · rintro ⟨before, source, after, parts, defines, nothing⟩
      refine ⟨after.reverse, source, before.reverse, by simp [parts], ?_, fun other member => ?_⟩
      · exact (gives source (by simp [parts]) value).mpr defines
      · have later := List.mem_reverse.mp member
        have listed : other ∈ input.sources bareKeys := by
          rw [parts]
          exact List.mem_append_right _ (List.mem_cons_of_mem _ later)
        exact (givesNone other listed).mpr (nothing other later)
  · rw [List.findSome?_eq_none_iff]
    simp only [List.mem_reverse]
    exact forall₂_congr givesNone

end StageInput

end Scope

namespace Example

open Scope

/-- A document with a title, to which the catalog gives the same name twice: for the number, and for a
place that does not exist. -/
def titled : StageInput :=
  { stage := .input
    payload := .object [("number", .text "2"),
      ("rows", .array [.object [("id", .text "a")], .object [("id", .text "b")]]),
      ("title", .text "x")]
    catalog := [⟨"title", "number", .input, false⟩, ⟨"title", "gone", .input, false⟩,
      ⟨"title", "rows", .output, true⟩]
    signals := [("parse", [("count", .text "3")])] }

theorem proper_titled : titled.Proper where
  payload := by
    have inOrder : ["number", "rows", "title"].Pairwise (· < ·) := by decide
    simpa [titled, Json.Value.Proper, Json.Value.ProperEntries, Json.Value.ProperItems,
      Dictionary.Sorted] using inOrder
  signals := by
    simp [titled, StageInput.signalDocument, Json.Value.Proper, Json.Value.ProperEntries,
      Dictionary.Sorted]

/-- The title is what the catalog says, and no source has the identifier, which occurs twice. -/
theorem lookup?_titled : titled.Proper ∧
    (∃ before source after, titled.sources true = before ++ source :: after ∧
      source.Defines "title" (.text "2") ∧ ∀ later ∈ after, ∀ other, ¬ later.Defines "title" other) ∧
    ∀ source ∈ titled.sources true, ∀ value, ¬ source.Defines "id" value := by
  have found : Dictionary.lookup? "title" (titled.names true) = some (.text "2") := by rfl
  have absent : Dictionary.lookup? "id" (titled.names true) = none := by rfl
  exact ⟨proper_titled, ((StageInput.lookup?_names_iff proper_titled true "title").1 _).mp found,
    (StageInput.lookup?_names_iff proper_titled true "id").2.mp absent⟩

end Example

end Vetting
