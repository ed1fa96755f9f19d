import Vetting.Uuid
import Vetting.Timestamp

/-!
Contract: what is submitted for validation.

Owns:
- submissions and their JSON form;
- the content as text, as a JSON document, and as the document that rules see.

Does not own: what steps do with the content.
-/

namespace Vetting

open Json (Value Shape)

/-- Submitted bytes with the type of file they are said to be. -/
structure Submission where
  id : Uuid
  fileType : String
  content : ByteArray
  createdAt : Timestamp
deriving Inhabited

namespace Submission

/-- The content as text, if it is one. -/
def text? (submission : Submission) : Option String := String.fromUTF8? submission.content

/-- The content as a JSON document, if it is one. -/
def document? (submission : Submission) : Option Value :=
  (Json.readBytes submission.content).toOption

/-- The document that rules see: the content, or what can be said about it if it is no JSON. -/
def payload (submission : Submission) : Value :=
  match submission.document? with
  | some document => document
  | none => .object [
      ("content", .text (submission.text?.getD "")),
      ("file_type", .text submission.fileType),
      ("size_bytes", .natural submission.content.size)]

def shape : Shape := Shape.record "struct Submission" [
  Shape.required "id" Uuid.shape,
  Shape.required "file_type" Shape.text,
  Shape.required "content" (Shape.listOf Shape.nat8),
  Shape.required "created_at" Timestamp.shape]

def toValue (submission : Submission) : Value := .object [
  ("content", .array (submission.content.toList.map fun byte => .natural byte.toNat)),
  ("created_at", submission.createdAt.toValue),
  ("file_type", .text submission.fileType),
  ("id", submission.id.toValue)]

def ofValue? (value : Value) : Option Submission := do
  let bytes ← value.field? "content" (Value.asList? (Value.asNat? 255))
  return {
    id := ← value.field? "id" Uuid.ofValue?
    fileType := ← value.field? "file_type" Value.asText?
    content := ⟨(bytes.map UInt8.ofNat).toArray⟩
    createdAt := ← value.field? "created_at" Timestamp.ofValue? }

instance : Json.Documented Submission := ⟨shape, ofValue?, toValue⟩

end Submission

end Vetting
