import Vetting.Finding.Severity

/-!
Contract: what a job reports about its work.

Owns:
- envelopes: a status, messages and outputs;
- their JSON form.

Does not own: what follows from an envelope for a step.
-/

namespace Vetting

open Json (Value Shape)

/-- How a job ended. -/
inductive EnvelopeStatus where
  | success
  | failedValidation
  | failedRuntime
  | cancelled
deriving DecidableEq, Inhabited, Repr

namespace EnvelopeStatus

def all : List EnvelopeStatus := [.success, .failedValidation, .failedRuntime, .cancelled]

def name : EnvelopeStatus → String
  | .success => "success"
  | .failedValidation => "failed_validation"
  | .failedRuntime => "failed_runtime"
  | .cancelled => "cancelled"

def named? (name : String) : Option EnvelopeStatus := all.find? fun status => status.name == name

def shape : Shape := Shape.choice (all.map fun status => [status.name])

def toValue (status : EnvelopeStatus) : Value := .text status.name

def ofValue? : Value → Option EnvelopeStatus
  | .text name => named? name
  | _ => none

instance : Json.Documented EnvelopeStatus := ⟨shape, ofValue?, toValue⟩

end EnvelopeStatus

/-- A message of a job. -/
structure EnvelopeMessage where
  severity : Severity
  text : String
  location : Option String
deriving DecidableEq, Inhabited

namespace EnvelopeMessage

def shape : Shape := Shape.record "struct EnvelopeMessage" [
  Shape.required "severity" Severity.shape,
  Shape.required "text" Shape.text,
  Shape.defaulted "location" (Shape.optional Shape.text) .null]

/-- A message without a location is written without one. -/
def toValue (message : EnvelopeMessage) : Value :=
  .object (Value.entryIfSome "location" Value.text message.location ++ [
    ("severity", message.severity.toValue),
    ("text", .text message.text)])

def ofValue? (value : Value) : Option EnvelopeMessage := do
  return {
    severity := ← value.field? "severity" Severity.ofValue?
    text := ← value.field? "text" Value.asText?
    location := ← value.optionalField? "location" Value.asText? }

instance : Json.Documented EnvelopeMessage := ⟨shape, ofValue?, toValue⟩

end EnvelopeMessage

/-- The report of a job. -/
structure Envelope where
  status : EnvelopeStatus
  messages : List EnvelopeMessage
  outputs : Value
deriving Inhabited

namespace Envelope

/-- An envelope without messages. -/
def plain (status : EnvelopeStatus) (outputs : Value) : Envelope := ⟨status, [], outputs⟩

/-- The envelope with one more message at the end. -/
def withMessage (envelope : Envelope) (severity : Severity) (text : String) : Envelope :=
  { envelope with messages := envelope.messages ++ [⟨severity, text, none⟩] }

def hasErrors (envelope : Envelope) : Bool :=
  envelope.messages.any fun message => message.severity == .error

/-- The outputs by name; none if they are no object. -/
def outputEntries (envelope : Envelope) : Dictionary Value :=
  match envelope.outputs with
  | .object entries => entries
  | _ => []

def shape : Shape := Shape.record "struct OutputEnvelope" [
  Shape.required "status" EnvelopeStatus.shape,
  Shape.defaulted "messages" (Shape.listOf EnvelopeMessage.shape) (.array []),
  Shape.defaulted "outputs" Shape.any .null]

def toValue (envelope : Envelope) : Value := .object [
  ("messages", .array (envelope.messages.map EnvelopeMessage.toValue)),
  ("outputs", envelope.outputs),
  ("status", envelope.status.toValue)]

def ofValue? (value : Value) : Option Envelope := do
  return {
    status := ← value.field? "status" EnvelopeStatus.ofValue?
    messages := ← value.fieldOr? "messages" (Value.asList? EnvelopeMessage.ofValue?) []
    outputs := ← value.fieldOr? "outputs" some .null }

/-- Reads an envelope from the bytes of a document. -/
def ofBytes (bytes : ByteArray) : Except Json.Fault Envelope :=
  Shape.readAs shape ofValue? bytes

instance : Json.Documented Envelope := ⟨shape, ofValue?, toValue⟩

end Envelope

end Vetting
