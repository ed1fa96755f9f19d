import Vetting.Json.Reader
import Vetting.Width

/-!
Contract: documents of an expected shape.

Owns:
- shapes and their two uses: reading a text, and settling a value;
- shapes of single values, lists, dictionaries, records and variants;
- which fault is reported when a document disagrees.

Does not own: the shapes of particular types, or the types.

A shape gives the settled form of a document: records are objects with all their
fields, variants have their own spelling, absent fields have their defaults.
A text is read once from left to right, so that the first fault in the text is
reported, whether it is one of grammar or of shape.  A value is settled in the
order of its entries, and its faults have no place.

The content of a tagged record is read before its shape is known and then settled
as a value (`Origin.buffered`).
-/

namespace Vetting.Json

/-- Where a value that is settled comes from. -/
inductive Origin where
  /-- A value of its own. -/
  | document
  /-- A part of a text that was read before its shape was known. -/
  | buffered
deriving DecidableEq

/-- An expected shape of documents. -/
structure Shape where
  read : Reader Value
  settle : Origin → Value → Except Fault Value

namespace Shape

open Reader

private def refuseValue (cause : Cause) : Except Fault α := .error (Fault.unplaced cause)

/-- Refuses the value that comes next, whose type is not the expected one. -/
def mismatch (expected : String) : Reader α := placed do
  let mark ← peekValue
  let found ←
    if mark = byte 'n' then do skip; word "ull".toList; pure Found.null
    else if mark = byte 't' then do skip; word "rue".toList; pure (.boolean true)
    else if mark = byte 'f' then do skip; word "alse".toList; pure (.boolean false)
    else if mark = byte '-' then do skip; pure (.number (← number false))
    else if isDigit mark then pure (.number (← number true))
    else if mark = byte '"' then do skip; pure (.text (← string))
    else if mark = byte '[' then pure .sequence
    else if mark = byte '\x7b' then pure .mapping
    else refuseNext .expectedValue
  disagree (.wrongType found expected)

/-- Refuses a value whose type is not the expected one. -/
def misfit (expected : String) (value : Value) : Except Fault α :=
  refuseValue (.wrongType (Found.ofValue value) expected)

/-- Any value. -/
def any : Shape where
  read := value
  settle _ value := .ok value.settled

/-- A text, as it stands, that passes a test of its content. -/
def textWith (expected : String) (test : String → Except Cause Unit) : Shape where
  read := placed do
    if (← peekValue) = byte '"' then
      skip
      let text ← string
      match test text with
      | .ok _ => return .text text
      | .error cause => disagree cause
    else mismatch expected
  settle _ value :=
    match value with
    | .text text => match test text with
      | .ok _ => .ok value
      | .error cause => refuseValue cause
    | other => misfit expected other

/-- A text. -/
def text : Shape := textWith "a string" fun _ => .ok ()

/-- A text that some parser accepts; the parser says why it does not. -/
def parsed (expected : String) (fault? : String → Option String) : Shape :=
  textWith expected fun text => match fault? text with
    | none => .ok ()
    | some reason => .error (.refused reason)

/-- A truth value. -/
def boolean : Shape where
  read := placed do
    let mark ← peekValue
    if mark = byte 't' then do skip; word "rue".toList; return .boolean true
    else if mark = byte 'f' then do skip; word "alse".toList; return .boolean false
    else mismatch "a boolean"
  settle _ value :=
    match value with
    | .boolean _ => .ok value
    | other => misfit "a boolean" other

/-- An integer between two bounds, called by the given name. -/
def integer (kind : String) (least greatest : Int) : Shape :=
  let test : Number → Except Cause Value := fun
    | .integer value =>
      if least ≤ value ∧ value ≤ greatest then .ok (.number (.integer value))
      else .error (.wrongValue (.number (.integer value)) kind)
    | .float value => .error (.wrongType (.number (.float value)) kind)
  { read := placed do
      let mark ← peekValue
      let read : Reader Number :=
        if mark = byte '-' then do skip; number false
        else if isDigit mark then number true
        else mismatch kind
      match test (← read) with
      | .ok value => return value
      | .error cause => disagree cause
    settle := fun _ value =>
      match value with
      | .number number => match test number with
        | .ok value => .ok value
        | .error cause => refuseValue cause
      | other => misfit kind other }

/-- Signed 32-bit integers. -/
def int32 : Shape := integer "i32" (Width.leastInt 32) (Width.greatestInt 32)

/-- Signed 64-bit integers. -/
def int64 : Shape := integer "i64" (Width.leastInt 64) (Width.greatestInt 64)

/-- Unsigned 8-bit integers. -/
def nat8 : Shape := integer "u8" 0 (Width.greatestNat 8)

/-- Unsigned 32-bit integers. -/
def nat32 : Shape := integer "u32" 0 (Width.greatestNat 32)

/-- Unsigned 64-bit integers. -/
def nat64 : Shape := integer "u64" 0 (Width.greatestNat 64)

/-- Sizes. -/
def size : Shape := integer "usize" 0 (Width.greatestNat 64)

/-- A floating-point number; integers count as one. -/
def float : Shape where
  read := placed do
    let mark ← peekValue
    if mark = byte '-' then do skip; return .number (.float (← number false).toFloat)
    else if isDigit mark then return .number (.float (← number true).toFloat)
    else mismatch "f64"
  settle _ value :=
    match value with
    | .number number => .ok (.number (.float number.toFloat))
    | other => misfit "f64" other

/-- Null or a value of the given shape. -/
def optional (shape : Shape) : Shape where
  read := do
    match ← peekToken with
    | some mark =>
      if mark = byte 'n' then do skip; word "ull".toList; return .null
      else shape.read
    | none => shape.read
  settle origin value :=
    match value with
    | .null => .ok .null
    | other => shape.settle origin other

private def settleItems (shape : Shape) (origin : Origin) : List Value → Except Fault (List Value)
  | [] => .ok []
  | item :: rest => do
    let item ← shape.settle origin item
    return item :: (← settleItems shape origin rest)

/-- A list of values of one shape. -/
def listOf (shape : Shape) : Shape where
  read := placed do
    if (← peekValue) = byte '[' then return .array (← list shape.read)
    else mismatch "a sequence"
  settle origin value :=
    match value with
    | .array items => do return .array (← settleItems shape origin items)
    | other => misfit "a sequence" other

private def settleEntries (shape : Shape) (origin : Origin) :
    List (String × Value) → Except Fault (List (String × Value))
  | [] => .ok []
  | (key, value) :: rest => do
    let value ← shape.settle origin value
    return (key, value) :: (← settleEntries shape origin rest)

/-- A dictionary with values of one shape; the last of several entries with one key counts. -/
def dictionaryOf (shape : Shape) : Shape where
  read := placed do
    if (← peekValue) = byte '\x7b' then return Value.ofEntries (← object shape.read)
    else mismatch "a map"
  settle origin value :=
    match value with
    | .object entries => do return Value.ofEntries (← settleEntries shape origin entries)
    | other => misfit "a map" other

/-! ### Records -/

/-- What holds for a field that a document does not have. -/
inductive Absence where
  /-- The document is refused. -/
  | refused
  /-- The field is null, but a record written as a list must have it. -/
  | null
  /-- The field has a default. -/
  | default (value : Value)

/-- A field of a record. -/
structure Field where
  name : String
  shape : Shape
  absence : Absence

/-- A field that a document must have. -/
def required (name : String) (shape : Shape) : Field := ⟨name, shape, .refused⟩

/-- A field that is null if a document does not have it. -/
def nullable (name : String) (shape : Shape) : Field := ⟨name, optional shape, .null⟩

/-- A field with a default. -/
def defaulted (name : String) (shape : Shape) (value : Value) : Field :=
  ⟨name, shape, .default value⟩

private def findField? (name : String) (fields : List Field) : Option Field :=
  fields.find? fun field => field.name == name

/-- The record of the entries found, with defaults for absent fields. -/
private def completed (fields : List Field) (found : List (String × Value)) :
    Except Cause (List (String × Value)) :=
  match fields with
  | [] => .ok []
  | field :: rest =>
    match Dictionary.lookup? field.name found, field.absence with
    | some value, _ => do return (field.name, value) :: (← completed rest found)
    | none, .default value => do return (field.name, value) :: (← completed rest found)
    | none, .null => do return (field.name, .null) :: (← completed rest found)
    | none, .refused => .error (.missingField field.name)

/-- What a record written as a list is expected to be. -/
private def withElements (expected : String) (count : Nat) : String :=
  expected ++ " with " ++ toString count ++ (if count = 1 then " element" else " elements")

/-- The fields of a record written as an object. -/
private def readFields (fields : List Field) :
    Nat → Bool → List (String × Value) → Reader (List (String × Value))
  | 0, _, found => return found
  | fuel + 1, isFirst, found => do
    if ← hasEntry isFirst then
      let name ← key
      match findField? name fields with
      | none =>
        colon
        skipValue
        readFields fields fuel false found
      | some field =>
        if Dictionary.has name found then disagree (.repeatedField name)
        else
          colon
          let value ← field.shape.read
          readFields fields fuel false ((name, value) :: found)
    else return found

/-- The fields of a record written as a list. -/
private def readElements (expected : String) (count : Nat) :
    List Field → Nat → Reader (List (String × Value))
  | [], _ => return []
  | field :: rest, position => do
    if ← hasItem (position == 0) then
      let value ← field.shape.read
      return (field.name, value) :: (← readElements expected count rest (position + 1))
    else match field.absence with
      | .default value =>
        return (field.name, value) :: (← readElements expected count rest (position + 1))
      | _ => disagree (.wrongLength position (withElements expected count))

private def settleFields (fields : List Field) (origin : Origin) :
    List (String × Value) → List (String × Value) → Except Fault (List (String × Value))
  | [], found => .ok found
  | (name, value) :: rest, found =>
    match findField? name fields with
    | none => settleFields fields origin rest found
    | some field =>
      if Dictionary.has name found then refuseValue (.repeatedField name)
      else do
        let value ← field.shape.settle origin value
        settleFields fields origin rest ((name, value) :: found)

/-- What the length of a list that is too long is expected to be. -/
private def fewerElements (origin : Origin) (count : Nat) : String :=
  match origin with
  | .document => "fewer elements in array"
  | .buffered =>
    toString count ++ (if count = 1 then " element" else " elements") ++ " in sequence"

private def settleElements (expected : String) (count : Nat) (origin : Origin) :
    List Field → Nat → List Value → Except Fault (List (String × Value))
  | [], _, [] => .ok []
  | [], position, rest =>
    refuseValue (.wrongLength (position + rest.length) (fewerElements origin position))
  | field :: fields, position, value :: rest => do
    let value ← field.shape.settle origin value
    let settled ← settleElements expected count origin fields (position + 1) rest
    return (field.name, value) :: settled
  | field :: fields, position, [] =>
    match field.absence with
    | .default value => do
      return (field.name, value) ::
        (← settleElements expected count origin fields (position + 1) [])
    | _ => refuseValue (.wrongLength position (withElements expected count))

/-- A record; `expected` says what it is in faults.  It may also be written as the list of its
fields. -/
def record (expected : String) (fields : List Field) : Shape where
  read := placed do
    let mark ← peekValue
    if mark = byte '[' then
      return Value.ofEntries (← nested (readElements expected fields.length fields 0) listEnd)
    else if mark = byte '\x7b' then
      let inside : Reader (List (String × Value)) := do
        match completed fields (← readFields fields ((← left) + 1) true []) with
        | .ok entries => return entries
        | .error cause => disagree cause
      return Value.ofEntries (← nested inside objectEnd)
    else mismatch expected
  settle origin value :=
    match value with
    | .array items => do
      return Value.ofEntries (← settleElements expected fields.length origin fields 0 items)
    | .object entries => do
      match completed fields (← settleFields fields origin entries []) with
      | .ok entries => return Value.ofEntries entries
      | .error cause => refuseValue cause
    | other => misfit expected other

/-! ### Variants -/

/-- What a variant holds. -/
inductive Payload where
  | nothing
  /-- A value of a shape; `kind` says what is expected where the variant stands alone. -/
  | holds (kind : String) (shape : Shape)

/-- A variant; its first name is the one it is written with. -/
structure Variant where
  names : List String
  payload : Payload

/-- A variant that holds nothing. -/
def plain (name : String) : Variant := ⟨[name], .nothing⟩

/-- A variant that holds one value. -/
def wrapping (name : String) (shape : Shape) : Variant := ⟨[name], .holds "newtype variant" shape⟩

/-- A variant that holds fields. -/
def withFields (name expected : String) (fields : List Field) : Variant :=
  ⟨[name], .holds "struct variant" (record expected fields)⟩

private def variantNamed (variants : List Variant) (name : String) : Except Cause Variant :=
  match variants.find? fun variant => variant.names.contains name with
  | some variant => .ok variant
  | none => .error (.unknownVariant name (variants.flatMap (·.names)))

private def Variant.name (variant : Variant) : String := variant.names.headD ""

/-- The name of a variant in a text. -/
private def readVariant (variants : List Variant) : Reader Variant := placed do
  if (← peekValue) = byte '"' then
    skip
    match variantNamed variants (← string) with
    | .ok variant => return variant
    | .error cause => disagree cause
  else mismatch "variant identifier"

/-- Null, where a variant holds nothing. -/
private def readNothing : Reader Unit := placed do
  if (← peekValue) = byte 'n' then
    skip
    word "ull".toList
  else mismatch "unit"

/-- What stands in a text between the braces of a variant with a value. -/
private def readHeld (variants : List Variant) : Reader Value := do
  let variant ← readVariant variants
  colon
  match variant.payload with
  | .nothing =>
    readNothing
    return .text variant.name
  | .holds _ shape => return .object [(variant.name, ← shape.read)]

/-- The end of a variant with a value, which must hold nothing else. -/
private def variantEnd : Reader Unit := do
  match ← peekToken with
  | some mark => if mark = byte '\x7d' then skip else refuse .expectedValue
  | none => refuse .endInObject

/-- Reads between braces without looking for their end when the inside is refused. -/
private def braced (inside : Reader α) : Reader α := fun cursor =>
  if cursor.depth ≤ 1 then .error ⟨.grammar .tooDeep, some cursor.nextPlace⟩ cursor
  else
    match inside { cursor.advanced 1 with depth := cursor.depth - 1 } with
    | .ok value after =>
      match variantEnd { after with depth := cursor.depth } with
      | .ok _ final => .ok value final
      | .error fault final => .error fault final
    | .error fault after => .error fault after

/-- One of several variants: the name of one that holds nothing, or an object whose only entry names
a variant and holds its value. -/
def union (variants : List Variant) : Shape where
  read := do
    match ← peekToken with
    | none => refuseNext .endInValue
    | some mark =>
      if mark = byte '\x7b' then braced (readHeld variants)
      else if mark = byte '"' then
        let variant ← readVariant variants
        match variant.payload with
        | .nothing => return .text variant.name
        | .holds kind _ => disagree (.wrongType .bareVariant kind)
      else refuseNext .expectedValue
  settle origin value :=
    match value with
    | .text name =>
      match variantNamed variants name with
      | .error cause => refuseValue cause
      | .ok variant => match variant.payload with
        | .nothing => .ok (.text variant.name)
        | .holds kind _ => refuseValue (.wrongType .bareVariant kind)
    | .object [(name, held)] =>
      match variantNamed variants name with
      | .error cause => refuseValue cause
      | .ok variant => match variant.payload with
        | .nothing =>
          match held, origin with
          | .null, _ => .ok (.text variant.name)
          | .object [], .buffered => .ok (.text variant.name)
          | other, _ => misfit "unit" other
        | .holds _ shape => do return .object [(variant.name, ← shape.settle origin held)]
    | .object _ => refuseValue (.wrongValue .mapping "map with a single key")
    | other => misfit "string or map" other

/-- A choice between names; each may have further spellings. -/
def choice (names : List (List String)) : Shape := union (names.map fun names => ⟨names, .nothing⟩)

/-- The variant that a value names. -/
private def settleTag (variants : List Variant) (origin : Origin) (value : Value) :
    Except Fault Variant :=
  match value, origin with
  | .text name, _ =>
    match variantNamed variants name with
    | .ok variant => .ok variant
    | .error cause => refuseValue cause
  | .number (.integer index), .buffered =>
    if 0 ≤ index then
      match variants[index.toNat]? with
      | some variant => .ok variant
      | none =>
        refuseValue (.wrongValue (.number (.integer index))
          ("variant index 0 <= i < " ++ toString variants.length))
    else misfit "variant identifier" value
  | other, _ => misfit "variant identifier" other

/-- The tag and the other entries of a tagged record written as an object. -/
private def readTagged (tag : String) (variants : List Variant) :
    Nat → Bool → Option Variant → List (String × Value) →
      Reader (Option Variant × List (String × Value))
  | 0, _, chosen, others => return (chosen, others.reverse)
  | fuel + 1, isFirst, chosen, others => do
    if ← hasEntry isFirst then
      let name ← key
      if name = tag then
        if chosen.isSome then disagree (.repeatedField tag)
        else
          colon
          let variant ← readVariant variants
          readTagged tag variants fuel false (some variant) others
      else
        colon
        let value ← rawValue
        readTagged tag variants fuel false chosen ((name, value) :: others)
    else return (chosen, others.reverse)

/-- The tag and the content of a tagged record written as an object. -/
private def readTaggedObject (tag : String) (variants : List Variant) : Reader (Variant × Value) :=
  nested
    (do
      match ← readTagged tag variants ((← left) + 1) true none [] with
      | (some variant, others) => return (variant, .object others)
      | (none, _) => disagree (.missingField tag))
    objectEnd

/-- The tag and the content of a tagged record written as a list. -/
private def readTaggedList (tag : String) (variants : List Variant) : Reader (Variant × Value) :=
  nested
    (do
      if ← hasItem true then
        let variant ← readVariant variants
        return (variant, .array (← items rawValue ((← left) + 1) false []))
      else disagree (.missingField tag))
    listEnd

private def settleTagged (tag : String) (variants : List Variant) (origin : Origin) :
    List (String × Value) → Option Variant → List (String × Value) →
      Except Fault (Option Variant × List (String × Value))
  | [], chosen, others => .ok (chosen, others.reverse)
  | (name, value) :: rest, chosen, others =>
    if name = tag then
      if chosen.isSome then refuseValue (.repeatedField tag)
      else do
        let variant ← settleTag variants origin value
        settleTagged tag variants origin rest (some variant) others
    else settleTagged tag variants origin rest chosen ((name, value) :: others)

/-- The settled content of a tagged record, with its tag. -/
private def taggedContent (tag : String) (variant : Variant) (content : Value) :
    Except Fault Value :=
  match variant.payload with
  | .nothing => .ok (.object [(tag, .text variant.name)])
  | .holds _ shape => do
    match ← shape.settle .buffered content with
    | .object entries => return .object (Dictionary.insert tag (.text variant.name) entries)
    | other => return other

/-- A record whose entry `tag` names the variant that its other entries belong to. -/
def tagged (expected tag : String) (variants : List Variant) : Shape where
  read := do
    let (variant, content) ← placed do
      let mark ← peekValue
      if mark = byte '[' then readTaggedList tag variants
      else if mark = byte '\x7b' then readTaggedObject tag variants
      else mismatch expected
    match taggedContent tag variant content with
    | .ok value => return value
    | .error fault => fun cursor => .error fault cursor
  settle origin value :=
    match value with
    | .array [] => refuseValue (.missingField tag)
    | .array (first :: rest) => do
      let variant ← settleTag variants origin first
      taggedContent tag variant (.array rest)
    | .object entries => do
      match ← settleTagged tag variants origin entries none [] with
      | (some variant, others) => taggedContent tag variant (.object others)
      | (none, _) => refuseValue (.missingField tag)
    | other => misfit expected other

/-! ### Typed documents -/

/-- Reads a text of a shape as a value of a type. -/
def readAs (shape : Shape) (ofValue? : Value → Option α) (bytes : ByteArray) : Except Fault α := do
  match ofValue? (← shape.read.whole bytes) with
  | some result => return result
  | none => refuseValue (.refused "")

/-- Takes a value as one of a type: as it stands, or in its settled form. -/
def decodeAs (shape : Shape) (ofValue? : Value → Option α) (value : Value) : Except Fault α :=
  match ofValue? value with
  | some result => .ok result
  | none => do
    match ofValue? (← shape.settle .document value) with
    | some result => return result
    | none => refuseValue (.refused "")

end Shape

end Vetting.Json
