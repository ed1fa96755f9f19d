import Vetting.Json.Documented

/-!
Contract: what is written into the fields of an object is found there again.

Owns:
- numbers that fit the width of their field are taken as they are;
- items of lists and optional values are taken one by one;
- entries that are left out where there is no value.

Does not own: which fields a type has.
-/

namespace Vetting

/-! ### Numbers of a width -/

namespace Width

/-- A natural number that a field without a sign can hold. -/
def Holds (bits number : Nat) : Prop := number ≤ greatestNat bits

/-- An integer that a field with a sign can hold. -/
def HoldsSigned (bits : Nat) (number : Int) : Prop :=
  leastInt bits ≤ number ∧ number ≤ greatestInt bits

instance (bits number : Nat) : Decidable (Holds bits number) := by
  unfold Holds
  infer_instance

instance (bits : Nat) (number : Int) : Decidable (HoldsSigned bits number) := by
  unfold HoldsSigned
  infer_instance

end Width

namespace Json.Value

variable {α : Type} {key : String} {entries : List (String × Value)} {take? : Value → Option α}
  {toValue : α → Value}

/-! ### Single values -/

theorem asNat32?_natural {number : Nat} (fits : Width.Holds 32 number) :
    asNat32? (natural number) = some number := by
  unfold Width.Holds at fits
  have bounds : (0 : Int) ≤ number ∧ (number : Int) ≤ (Width.greatestNat 32 : Nat) := by omega
  simp only [asNat32?, asNat?, natural, if_pos bounds, Int.toNat_natCast]

theorem asInt32?_integer {number : Int} (fits : Width.HoldsSigned 32 number) :
    asInt32? (integer number) = some number := by
  simp only [asInt32?, asIntegerIn?, integer]
  exact if_pos fits

theorem asInt64?_integer {number : Int} (fits : Width.HoldsSigned 64 number) :
    asInt64? (integer number) = some number := by
  simp only [asInt64?, asIntegerIn?, integer]
  exact if_pos fits

theorem asFloat?_float {number : Float} (finite : number.isFinite = true) :
    asFloat? (float number) = some number := by
  rw [float, if_pos finite, asFloat?]

theorem asList?_map {items : List α} (reads : ∀ item ∈ items, take? (toValue item) = some item) :
    asList? take? (.array (items.map toValue)) = some items := by
  rw [asList?]
  induction items with
  | nil => rfl
  | cons item rest inductionHypothesis =>
    have others := inductionHypothesis fun other member =>
      reads other (List.mem_cons_of_mem _ member)
    simp [takeItems?, reads item List.mem_cons_self, others]

theorem asDictionary?_object (entries : Dictionary Value) :
    asDictionary? some (.object entries) = some entries := by
  rw [asDictionary?]
  induction entries with
  | nil => rfl
  | cons entry rest inductionHypothesis => simp [takeEntries?, inductionHypothesis]

/-- A value that is taken as one of a type is taken as one that is there, if null is not. -/
theorem asOption?_eq_some {held : Value} {value : α} (reads : take? held = some value)
    (refuses : take? .null = none) : asOption? take? held = some (some value) := by
  cases held with
  | null =>
    rw [refuses] at reads
    cases reads
  | boolean | number | text | array | object => simp [asOption?, reads]

/-! ### Fields -/

theorem fieldOr?_object {held : Value} {default : α}
    (found : Dictionary.lookup? key entries = some held) :
    fieldOr? key take? default (.object entries) = take? held := by
  rw [fieldOr?, found]

/-- An optional value is found again where none is written as null. -/
theorem optionalField?_ofOption {value? : Option α}
    (found : Dictionary.lookup? key entries = some (ofOption toValue value?))
    (refuses : take? .null = none) (reads : ∀ value ∈ value?, take? (toValue value) = some value) :
    optionalField? key take? (.object entries) = some value? := by
  rw [optionalField?, fieldOr?_object found]
  cases value? with
  | none => rfl
  | some value => exact asOption?_eq_some (reads value rfl) refuses

/-- An optional value is found again where none is left out. -/
theorem optionalField?_leftOut (toValue : α → Value) {value? : Option α}
    (found : Dictionary.lookup? key entries = value?.map toValue)
    (refuses : take? .null = none) (reads : ∀ value ∈ value?, take? (toValue value) = some value) :
    optionalField? key take? (.object entries) = some value? := by
  rw [optionalField?, fieldOr?, found]
  cases value? with
  | none => rfl
  | some value => exact asOption?_eq_some (reads value rfl) refuses

theorem lookup?_entryIfSome (wanted name : String) (toValue : α → Value) (value? : Option α) :
    Dictionary.lookup? wanted (entryIfSome name toValue value?) =
      if name = wanted then value?.map toValue else none := by
  cases value? with
  | none => simp [entryIfSome]
  | some value => simp [entryIfSome, Dictionary.lookup?]

end Json.Value

end Vetting
