import Vetting.Json.Field

/-!
Contract: types whose values have a JSON form.

Owns:
- the class of such types: how their values are read, recognized and written;
- the forms of lists, of optional values and of simple values;
- reading a value of a type from a document or from the bytes of a document;
- fields of a document that need not be there.

Does not own: the forms of particular types, which stand beside the types.
-/

namespace Vetting.Json

/-- A type whose values have a JSON form. -/
class Documented (α : Type) where
  /-- What the readers of this type accept, and why they refuse the rest. -/
  shape : Shape
  /-- The value that a settled document denotes. -/
  ofValue? : Value → Option α
  toValue : α → Value

namespace Documented

instance : Documented Value := ⟨Shape.any, some, id⟩

instance : Documented String := ⟨Shape.text, Value.asText?, Value.text⟩

instance : Documented Bool := ⟨Shape.boolean, Value.asBoolean?, Value.boolean⟩

instance [Documented α] : Documented (List α) where
  shape := Shape.listOf (shape α)
  ofValue? := Value.asList? ofValue?
  toValue items := .array (items.map toValue)

instance [Documented α] : Documented (Option α) where
  shape := Shape.optional (shape α)
  ofValue? := Value.asOption? ofValue?
  toValue := Value.ofOption toValue

end Documented

open Documented

/-- The value of a type that a document denotes. -/
def decode (α : Type) [Documented α] (document : Value) : Except Fault α :=
  Shape.decodeAs (shape α) ofValue? document

/-- The value of a type that the bytes of a document denote. -/
def decodeBytes (α : Type) [Documented α] (bytes : ByteArray) : Except Fault α :=
  Shape.readAs (shape α) ofValue? bytes

namespace Value

/-- The value of a field; none if it is missing or of another type. -/
def optional? [Documented α] (value : Value) (key : String) : Option α :=
  (value.get? key).bind fun held => (decode α held).toOption

/-- The value of a field, or a default. -/
def optionalOr [Documented α] (value : Value) (key : String) (default : α) : α :=
  (value.optional? key).getD default

/-- The items of a field; none if it is no array. -/
def itemsOf (value : Value) (key : String) : List Value := value.optionalOr key []

/-- The entries of a field; none if it is no object. -/
def entriesOf (value : Value) (key : String) : List (String × Value) :=
  match value.get? key with
  | some (.object entries) => entries
  | _ => []

end Value

end Vetting.Json
