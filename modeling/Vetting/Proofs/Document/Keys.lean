import Mathlib.Data.List.Basic
import Mathlib.Data.List.TakeWhile
import Vetting.Document.Path
import Vetting.Proofs.Json.Compact
import Vetting.Proofs.Text.Cutting

/-!
Contract: paths that are made of keys alone.

Owns:
- keys that can stand between the dots of a path, and the path of several of them;
- looking keys up in objects, one after the other, and objects that lack one of them;
- which entries a path of keys leads to;
- that it leads where its keys lead exactly if none of them is a number below `2 ^ 64` with a plus
  sign or with leading zeros.

Does not own: groups in brackets, and items of arrays.

A key that reads as a number is looked up in plain decimal digits, however it is spelled in the path.
-/

namespace Vetting.Document

open Json (Value)

/-! ### Keys and the paths of keys -/

/-- A key that can stand between the dots of a path. -/
structure PlainKey (key : String) : Prop where
  nonempty : key.toList ≠ []
  noDot : '.' ∉ key.toList
  noBracket : '[' ∉ key.toList
  startsSolid : ∀ character ∈ key.toList.head?, Text.isBlank character = false
  endsSolid : ∀ character ∈ key.toList.getLast?, Text.isBlank character = false

/-- The path of keys, with dots between them. -/
def pathOf (keys : List String) : String := Text.joined "." keys

/-- Looks keys up in objects, one after the other. -/
def entryAt? : List String → Value → Option Value
  | [], value => some value
  | key :: rest, value => (value.get? key).bind (entryAt? rest)

/-- An object on the way lacks the key that is looked up in it. -/
inductive Lacks : List String → Value → Prop
  | here {key : String} {rest : List String} {entries : List (String × Value)}
      (absent : Dictionary.lookup? key entries = none) : Lacks (key :: rest) (.object entries)
  | further {key : String} {rest : List String} {entries : List (String × Value)} {value : Value}
      (found : Dictionary.lookup? key entries = some value) (lacks : Lacks rest value) :
    Lacks (key :: rest) (.object entries)

/-- A path leads from a value to where the keys lead, and nowhere if an object lacks one of them. -/
structure Follows (path : String) (keys : List String) (root : Value) : Prop where
  found : ∀ value, entryAt? keys root = some value → resolve? root path = some value
  lacking : Lacks keys root → resolve? root path = none

/-! ### Cutting a path at its dots -/

theorem toList_pathOf_cons (first second : String) (rest : List String) :
    (pathOf (first :: second :: rest)).toList =
      first.toList ++ '.' :: (pathOf (second :: rest)).toList := by
  simp [pathOf, Text.joined]

theorem cutAt_pathOf {keys : List String} (nonempty : keys ≠ [])
    (plain : ∀ key ∈ keys, PlainKey key) :
    Text.cutAt '.' (pathOf keys).toList = keys.map String.toList :=
  Text.cutAt_joined rfl nonempty fun key member => (plain key member).noDot

/-! ### Nothing is trimmed -/

theorem head?_pathOf {first : String} (plain : PlainKey first) (rest : List String) :
    (pathOf (first :: rest)).toList.head? = first.toList.head? := by
  cases rest with
  | nil => rfl
  | cons second others =>
    rw [toList_pathOf_cons, List.head?_append_of_ne_nil _ plain.nonempty]

theorem getLast?_pathOf {keys : List String} (plain : ∀ key ∈ keys, PlainKey key) :
    ∀ character ∈ (pathOf keys).toList.getLast?, Text.isBlank character = false := by
  induction keys with
  | nil => simp [pathOf, Text.joined]
  | cons first rest inductionHypothesis =>
    cases rest with
    | nil => exact (plain first List.mem_cons_self).endsSolid
    | cons second others =>
      have later := inductionHypothesis fun key member => plain key (List.mem_cons_of_mem _ member)
      have isSome : (pathOf (second :: others)).toList ≠ [] := by
        have begins := head?_pathOf (plain second (by simp)) others
        intro empty
        rw [empty, List.head?_nil, eq_comm, List.head?_eq_none_iff] at begins
        exact (plain second (by simp)).nonempty begins
      rw [toList_pathOf_cons, List.getLast?_append_of_ne_nil _ (List.cons_ne_nil _ _),
        List.getLast?_cons_of_ne_nil isSome]
      exact later

theorem trimBlanks_pathOf {keys : List String} (plain : ∀ key ∈ keys, PlainKey key) :
    Text.trimBlanks (pathOf keys).toList = (pathOf keys).toList := by
  refine Text.Solid.trimBlanks_eq ⟨?_, getLast?_pathOf plain⟩
  cases keys with
  | nil => simp [pathOf, Text.joined]
  | cons first rest =>
    have isFirst := plain first List.mem_cons_self
    rw [head?_pathOf isFirst]
    exact isFirst.startsSolid

/-! ### The steps of a path of keys -/

/-- A part without brackets is one step. -/
theorem part?_of_plain {key : String} (plain : PlainKey key) :
    part? key.toList = some [headStep key.toList] := by
  have outside : ∀ character ∈ key.toList, decide (character ≠ '[') = true := by
    intro character member
    simpa using ne_of_mem_of_not_mem member plain.noBracket
  have head : key.toList.takeWhile (· ≠ '[') = key.toList := List.takeWhile_eq_self_iff.mpr outside
  have rest : key.toList.dropWhile (· ≠ '[') = [] := List.dropWhile_eq_nil_iff.mpr outside
  unfold part?
  simp only [head, rest]
  split
  · rename_i empty
    exact absurd empty plain.nonempty
  · simp [groups?, plain.nonempty]

theorem parts?_of_plain {keys : List String} (plain : ∀ key ∈ keys, PlainKey key) :
    parts? (keys.map String.toList) = some (keys.map fun key => headStep key.toList) := by
  induction keys with
  | nil => rfl
  | cons key rest inductionHypothesis =>
    have later := inductionHypothesis fun other member => plain other (List.mem_cons_of_mem _ member)
    simp only [List.map_cons, parts?, part?_of_plain (plain key List.mem_cons_self), later,
      List.singleton_append]

/-- A path of keys is a descent by the steps of its keys. -/
theorem resolve?_pathOf {keys : List String} (nonempty : keys ≠ [])
    (plain : ∀ key ∈ keys, PlainKey key) (root : Value) :
    resolve? root (pathOf keys) = descend? (keys.map fun key => headStep key.toList) root := by
  have isSteps : steps? (pathOf keys).toList = some (keys.map fun key => headStep key.toList) := by
    rw [steps?, cutAt_pathOf nonempty plain, parts?_of_plain plain]
  unfold resolve?
  rw [trimBlanks_pathOf plain]
  split
  · rename_i empty
    rw [empty] at isSteps
    cases isSteps
  · rw [isSteps]

/-! ### Keys that read as numbers -/

/-- The key that is looked up for a key in a path: a number is written in plain digits. -/
def respelled (key : String) : String :=
  match unsigned? key.toList with
  | some number => toString number
  | none => key

theorem child?_headStep (key : String) (entries : List (String × Value)) :
    child? (headStep key.toList) (.object entries) = Dictionary.lookup? (respelled key) entries := by
  unfold headStep respelled
  cases unsigned? key.toList with
  | some number => rfl
  | none => simp [child?]

theorem descend?_of_entryAt? {keys : List String} {root value : Value}
    (leads : entryAt? (keys.map respelled) root = some value) :
    descend? (keys.map fun key => headStep key.toList) root = some value := by
  induction keys generalizing root with
  | nil => exact leads
  | cons key rest inductionHypothesis =>
    obtain ⟨inner, found, onward⟩ := Option.bind_eq_some_iff.mp leads
    cases root with
    | object entries =>
      have isChild : child? (headStep key.toList) (.object entries) = some inner :=
        (child?_headStep key entries).trans found
      rw [List.map_cons, descend?, isChild]
      exact inductionHypothesis onward
    | null | boolean | number | text | array => cases found

theorem descend?_of_lacks {keys : List String} {root : Value}
    (lacks : Lacks (keys.map respelled) root) :
    descend? (keys.map fun key => headStep key.toList) root = none := by
  induction keys generalizing root with
  | nil => cases lacks
  | cons key rest inductionHypothesis =>
    rw [List.map_cons] at lacks ⊢
    cases lacks with
    | here absent => rw [descend?, child?_headStep, absent]
    | further found lacks =>
      rw [descend?, child?_headStep, found]
      exact inductionHypothesis lacks

/-- A path of keys leads to the entries of its keys, numbers being written in plain digits. -/
theorem follows_respelled {keys : List String} (nonempty : keys ≠ [])
    (plain : ∀ key ∈ keys, PlainKey key) (root : Value) :
    Follows (pathOf keys) (keys.map respelled) root where
  found := by
    intro value leads
    rw [resolve?_pathOf nonempty plain]
    exact descend?_of_entryAt? leads
  lacking := by
    intro lacks
    rw [resolve?_pathOf nonempty plain]
    exact descend?_of_lacks lacks

/-! ### Numbers in plain digits -/

theorem digitChar_of_isDigit {digit : Char} (isDigit : digit.isDigit = true) :
    digit.toNat - '0'.toNat < 10 ∧ (digit.toNat - '0'.toNat).digitChar = digit := by
  have zero : '0'.toNat = 48 := rfl
  have bounds : 48 ≤ digit.toNat ∧ digit.toNat ≤ 57 := by
    simpa [Char.isDigit, UInt32.le_iff_toNat_le] using isDigit
  have small : digit.toNat - '0'.toNat < 10 := by omega
  refine ⟨small, Char.toNat_inj.mp ?_⟩
  rw [Nat.toNat_digitChar_of_lt_ten small]
  omega

/-- Digits that are added up are written behind those of what has been built. -/
theorem toDigits_append_of_digitsValue? {digits : List Char} {built number : Nat}
    (positive : 0 < built) (denotes : digitsValue? built digits = some number) :
    Nat.toDigits 10 built ++ digits = Nat.toDigits 10 number := by
  induction digits generalizing built with
  | nil =>
    obtain rfl := Option.some.inj denotes
    exact List.append_nil _
  | cons digit rest inductionHypothesis =>
    rw [digitsValue?] at denotes
    split at denotes
    · rename_i isDigit
      obtain ⟨small, same⟩ := digitChar_of_isDigit isDigit
      rw [Nat.mul_comm] at denotes
      have next := Nat.toDigits_append_toDigits (by decide : 1 < 10) positive small
      rw [Nat.toDigits_of_lt_base small, same] at next
      calc Nat.toDigits 10 built ++ digit :: rest
          = Nat.toDigits 10 built ++ [digit] ++ rest := by simp
        _ = Nat.toDigits 10 (10 * built + (digit.toNat - '0'.toNat)) ++ rest := by rw [next]
        _ = Nat.toDigits 10 number := inductionHypothesis (by omega) denotes
    · cases denotes

/-- Digits without leading zeros are those in which their number is written. -/
theorem toDigits_of_digitsValue? {digits : List Char} {number : Nat} (nonempty : digits ≠ [])
    (denotes : digitsValue? 0 digits = some number)
    (plain : digits.head? = some '0' → digits = ['0']) : Nat.toDigits 10 number = digits := by
  cases digits with
  | nil => exact absurd rfl nonempty
  | cons digit rest =>
    by_cases zero : digit = '0'
    · subst zero
      obtain ⟨_, rfl⟩ := List.cons.inj (plain rfl)
      obtain rfl := Option.some.inj denotes
      rfl
    · rw [digitsValue?] at denotes
      split at denotes
      · rename_i isDigit
        obtain ⟨small, same⟩ := digitChar_of_isDigit isDigit
        have positive : 0 < digit.toNat - '0'.toNat := by
          refine Nat.pos_of_ne_zero fun isZero => zero ?_
          rw [← same, isZero]
          rfl
        rw [Nat.zero_mul, Nat.zero_add] at denotes
        rw [← toDigits_append_of_digitsValue? positive denotes, Nat.toDigits_of_lt_base small, same]
        rfl
      · cases denotes

theorem head?_toDigits {number : Nat} (positive : 0 < number) :
    (Nat.toDigits 10 number).head? ≠ some '0' := by
  induction number using Nat.strongRecOn with
  | ind number inductionHypothesis =>
    rw [Nat.toDigits_eq_if (by decide)]
    split
    · simp [Nat.digitChar_eq_zero]
      omega
    · rw [List.head?_append_of_ne_nil _ Nat.toDigits_ne_nil]
      exact inductionHypothesis (number / 10) (by omega) (by omega)

theorem digitsValue?_of_unsigned? {text : List Char} {number : Nat}
    (unsigned : text.head? ≠ some '+') (reads : unsigned? text = some number) :
    text ≠ [] ∧ digitsValue? 0 text = some number := by
  cases text with
  | nil => cases reads
  | cons character rest =>
    have other : character ≠ '+' := fun plus => unsigned (congrArg some plus)
    refine ⟨List.cons_ne_nil _ _, ?_⟩
    cases denotes : digitsValue? 0 (character :: rest) with
    | none => simp [unsigned?, other, denotes] at reads
    | some value =>
      have small : value < Width.count 64 ∧ value = number := by
        simpa [unsigned?, other, denotes] using reads
      rw [small.2]

/-- A number below `2 ^ 64` with a plus sign or with leading zeros. -/
def Disguised (key : String) : Prop :=
  (unsigned? key.toList).isSome = true ∧
    (key.toList.head? = some '+' ∨ key.toList.head? = some '0' ∧ key.toList ≠ ['0'])

instance (key : String) : Decidable (Disguised key) := by
  unfold Disguised
  infer_instance

theorem toString_eq_iff {number : Nat} {key : String} :
    toString number = key ↔ Nat.toDigits 10 number = key.toList := by
  rw [Nat.toString_eq_ofList_toDigits, ← String.toList_inj, String.toList_ofList]

/-- A key is looked up as it is spelled unless it is disguised. -/
theorem respelled_eq_iff (key : String) : respelled key = key ↔ ¬ Disguised key := by
  unfold respelled
  cases reads : unsigned? key.toList with
  | none => simp [Disguised, reads]
  | some number =>
    have isNumber : (unsigned? key.toList).isSome = true := by rw [reads]; rfl
    change toString number = key ↔ _
    rw [toString_eq_iff]
    constructor
    · rintro same ⟨_, signed | ⟨padded, long⟩⟩
      · have member := List.mem_of_mem_head? signed
        rw [← same] at member
        exact absurd (Nat.isDigit_of_mem_toDigits (by decide) (by decide) member) (by decide)
      · rw [← same] at padded long
        rcases Nat.eq_zero_or_pos number with rfl | positive
        · exact long rfl
        · exact head?_toDigits positive padded
    · intro undisguised
      have unsigned : key.toList.head? ≠ some '+' :=
        fun signed => undisguised ⟨isNumber, .inl signed⟩
      obtain ⟨nonempty, denotes⟩ := digitsValue?_of_unsigned? unsigned reads
      refine toDigits_of_digitsValue? nonempty denotes fun padded => ?_
      exact Decidable.byContradiction fun long => undisguised ⟨isNumber, .inr ⟨padded, long⟩⟩

/-- What digits add up to. -/
theorem digitsValue?_eq_some_iff {digits : List Char} {built number : Nat} :
    digitsValue? built digits = some number ↔
      (∀ digit ∈ digits, digit.isDigit = true) ∧ Nat.ofDigitChars 10 digits built = number := by
  induction digits generalizing built with
  | nil => simp [digitsValue?]
  | cons digit rest inductionHypothesis =>
    rw [digitsValue?]
    split
    · rename_i isDigit
      rw [inductionHypothesis, Nat.mul_comm, List.forall_mem_cons, Nat.ofDigitChars_cons]
      simp [isDigit]
    · rename_i noDigit
      simp [noDigit]

theorem unsigned?_toString {number : Nat} (small : number < Width.count 64) :
    unsigned? (toString number).toList = some number := by
  have denotes : digitsValue? 0 (toString number).toList = some number := by
    refine digitsValue?_eq_some_iff.mpr ⟨fun _ member => Json.isDigit_of_mem_toString member, ?_⟩
    rw [Json.toList_toString_natural, Nat.ofDigitChars_ten_toDigits]
  cases isText : (toString number).toList with
  | nil => exact absurd isText (Json.toList_toString_ne_nil (.ofNat number))
  | cons first rest =>
    have member : first ∈ (toString number).toList := by
      rw [isText]
      exact List.mem_cons_self
    have unsigned : first ≠ '+' := by
      rintro rfl
      cases Json.isDigit_of_mem_toString member
    rw [isText] at denotes
    simp [unsigned?, unsigned, denotes, small]

theorem isBlank_of_isDigit {character : Char} (isDigit : character.isDigit = true) :
    Text.isBlank character = false := by
  obtain ⟨small, same⟩ := digitChar_of_isDigit isDigit
  have solid : ∀ number < 10, Text.isBlank (Nat.digitChar number) = false := by decide
  rw [← same]
  exact solid _ small

theorem plainKey_toString (number : Nat) : PlainKey (toString number) where
  nonempty := Json.toList_toString_ne_nil (.ofNat number)
  noDot := fun member => by cases Json.isDigit_of_mem_toString member
  noBracket := fun member => by cases Json.isDigit_of_mem_toString member
  startsSolid := fun _ first =>
    isBlank_of_isDigit (Json.isDigit_of_mem_toString (List.mem_of_mem_head? first))
  endsSolid := fun _ last =>
    isBlank_of_isDigit (Json.isDigit_of_mem_toString (List.mem_of_mem_getLast? last))

theorem plainKey_iff (key : String) :
    PlainKey key ↔ key.toList ≠ [] ∧ '.' ∉ key.toList ∧ '[' ∉ key.toList ∧
      key.toList.head?.any Text.isBlank = false ∧ key.toList.getLast?.any Text.isBlank = false := by
  simp only [Option.any_eq_false]
  exact ⟨fun ⟨nonempty, noDot, noBracket, starts, ends⟩ => ⟨nonempty, noDot, noBracket, starts, ends⟩,
    fun ⟨nonempty, noDot, noBracket, starts, ends⟩ => ⟨nonempty, noDot, noBracket, starts, ends⟩⟩

instance (key : String) : Decidable (PlainKey key) := decidable_of_iff' _ (plainKey_iff key)

/-! ### Where paths of keys lead -/

/-- Objects inside each other, each with one entry. -/
def nested : List String → Value
  | [] => .null
  | key :: rest => .object [(key, nested rest)]

theorem entryAt?_nested (keys : List String) : entryAt? keys (nested keys) = some .null := by
  induction keys with
  | nil => rfl
  | cons key rest inductionHypothesis =>
    simpa [entryAt?, nested, Value.get?, Dictionary.lookup?] using inductionHypothesis

/-- Only by keys that are looked up as they are spelled does a descent come to an end. -/
theorem respelled_of_descend? {keys : List String} {value : Value}
    (leads : descend? (keys.map fun key => headStep key.toList) (nested keys) = some value) :
    ∀ key ∈ keys, respelled key = key := by
  induction keys with
  | nil => exact fun _ member => nomatch member
  | cons key rest inductionHypothesis =>
    rw [List.map_cons, nested, descend?, child?_headStep, Dictionary.lookup?] at leads
    by_cases same : key = respelled key
    · rw [if_pos same] at leads
      exact List.forall_mem_cons.mpr ⟨same.symm, inductionHypothesis leads⟩
    · rw [if_neg same] at leads
      cases leads

/-- A path of keys leads to the entries of its keys, with numbers in plain digits.  So it leads where
its keys lead, in every document, exactly if none of them is a number in disguise. -/
theorem follows_pathOf_iff {keys : List String} (nonempty : keys ≠ [])
    (plain : ∀ key ∈ keys, PlainKey key) :
    (∀ root, Follows (pathOf keys) (keys.map respelled) root) ∧
      ((∀ root, Follows (pathOf keys) keys root) ↔ ∀ key ∈ keys, ¬ Disguised key) := by
  refine ⟨follows_respelled nonempty plain, fun follows => ?_, fun undisguised root => ?_⟩
  · have leads := (follows (nested keys)).found _ (entryAt?_nested keys)
    rw [resolve?_pathOf nonempty plain] at leads
    exact fun key member => (respelled_eq_iff key).mp (respelled_of_descend? leads key member)
  · have asSpelled : keys.map respelled = keys.map id :=
      List.map_congr_left fun key member => (respelled_eq_iff key).mpr (undisguised key member)
    have follows := follows_respelled nonempty plain root
    rwa [asSpelled, List.map_id] at follows

end Vetting.Document

namespace Vetting.Example

open Document Json

/-- A document with a row under a number with leading zeros. -/
def padded : Value := .object [("rows", .object [("007", .text "bond")])]

theorem plainKey_padded : ∀ key ∈ ["rows", "007"], PlainKey key := by
  intro key member
  have either : key = "rows" ∨ key = "007" := by simpa using member
  rcases either with rfl | rfl
  · refine ⟨by decide, by decide, by decide, ?_, ?_⟩ <;> rintro _ ⟨⟩ <;> decide
  · refine ⟨by decide, by decide, by decide, ?_, ?_⟩ <;> rintro _ ⟨⟩ <;> decide

/-- The path leads to the row under `7`, of which there is none, and so not everywhere where its keys
lead. -/
theorem follows_padded : ["rows", "007"] ≠ [] ∧ (∀ key ∈ ["rows", "007"], PlainKey key) ∧
    Follows "rows.007" ["rows", "7"] padded ∧
    ¬ ∀ root, Follows "rows.007" ["rows", "007"] root := by
  have follows := follows_pathOf_iff (List.cons_ne_nil "rows" ["007"]) plainKey_padded
  refine ⟨List.cons_ne_nil _ _, plainKey_padded, follows.1 padded, fun everywhere => ?_⟩
  exact follows.2.mp everywhere "007" (by decide) (by decide)

/-- A path need not lead where its keys lead. -/
theorem not_follows : ¬ ∀ (keys : List String) (root : Value), keys ≠ [] →
    (∀ key ∈ keys, PlainKey key) → Follows (pathOf keys) keys root := by
  intro claimed
  have found := (claimed ["rows", "007"] padded (List.cons_ne_nil _ _) plainKey_padded).found
    (.text "bond") rfl
  have missed : (resolve? padded (pathOf ["rows", "007"])).isSome = false := by decide
  rw [found] at missed
  cases missed

end Vetting.Example
