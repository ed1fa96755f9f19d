import Vetting.Json.Fault
import Vetting.Width

/-!
Contract: reading JSON text.

Owns:
- the cursor of a reader and the place it stands for;
- white space, words, numbers, strings, and the frame of lists and objects;
- reading a value, and passing over one whose content does not matter;
- reading a whole document.

Does not own: documents of a given shape (`Vetting.Json.Shape`).

A reader either gives a value or a fault, and in both cases the cursor it ended
at: when a list or an object is refused inside, its end is still looked for, and
a fault that has no place yet gets the place where that search ended.  Lists and
objects may be nested 127 deep.  A value that is passed over is held to a weaker
grammar: numbers may be out of range, strings need not be valid text, and
nesting is unlimited.
-/

namespace Vetting.Json

/-- Where a reader stands in a document. -/
structure Cursor where
  bytes : ByteArray
  index : Nat
  /-- How many levels of nesting are left. -/
  depth : Nat

namespace Cursor

/-- The cursor at the start of a document. -/
def start (bytes : ByteArray) : Cursor := ⟨bytes, 0, 128⟩

/-- The place of a byte position: the lines and the bytes since the last line end before it. -/
def placeOf (bytes : ByteArray) (index : Nat) : Place :=
  let before := bytes.toList.take index
  let column := (before.reverse.takeWhile (· ≠ 0x0a)).length
  ⟨1 + before.countP (· = 0x0a), column⟩

/-- The place of the bytes read so far. -/
def place (cursor : Cursor) : Place := placeOf cursor.bytes cursor.index

/-- The place just after the next byte. -/
def nextPlace (cursor : Cursor) : Place :=
  placeOf cursor.bytes (min cursor.bytes.size (cursor.index + 1))

/-- The next byte. -/
def peek? (cursor : Cursor) : Option UInt8 := cursor.bytes[cursor.index]?

/-- How many bytes are left. -/
def left (cursor : Cursor) : Nat := cursor.bytes.size - cursor.index

/-- Moves over a number of bytes. -/
def advanced (cursor : Cursor) (count : Nat) : Cursor :=
  { cursor with index := cursor.index + count }

end Cursor

/-- A computation that reads from a document. -/
abbrev Reader (α : Type) : Type := EStateM Fault Cursor α

namespace Reader

/-- The byte of an ASCII character. -/
def byte (character : Char) : UInt8 := UInt8.ofNat character.toNat

/-- Refuses the document at the place of the bytes read so far. -/
def refuse (fault : GrammarFault) : Reader α := fun cursor =>
  .error ⟨.grammar fault, some cursor.place⟩ cursor

/-- Refuses the document at the place of the next byte. -/
def refuseNext (fault : GrammarFault) : Reader α := fun cursor =>
  .error ⟨.grammar fault, some cursor.nextPlace⟩ cursor

/-- Refuses the document for a cause whose place is not yet known. -/
def disagree (cause : Cause) : Reader α := fun cursor =>
  .error (Fault.unplaced cause) cursor

/-- Gives a fault without a place the place of the bytes read so far. -/
def placed (reader : Reader α) : Reader α := fun cursor =>
  match reader cursor with
  | .ok value after => .ok value after
  | .error fault after => .error (fault.placedAt after.place) after

def peek : Reader (Option UInt8) := fun cursor => .ok cursor.peek? cursor

/-- Passes over one byte. -/
def skip : Reader Unit := fun cursor => .ok () (cursor.advanced 1)

/-- Reads one byte. -/
def next : Reader (Option UInt8) := fun cursor =>
  match cursor.peek? with
  | none => .ok none cursor
  | some byte => .ok (some byte) (cursor.advanced 1)

/-- How many bytes are left. -/
def left : Reader Nat := fun cursor => .ok cursor.left cursor

/-- Whether a byte is one of the four blanks of JSON. -/
def isSpace (value : UInt8) : Bool :=
  value = 0x20 || value = 0x0a || value = 0x09 || value = 0x0d

/-- The first position from `index` on, of at most `fuel`, whose byte does not pass the test. -/
def scan (bytes : ByteArray) (test : UInt8 → Bool) : Nat → Nat → Nat
  | 0, index => index
  | fuel + 1, index =>
    match bytes[index]? with
    | some value => if test value then scan bytes test fuel (index + 1) else index
    | none => index

/-- Passes over the bytes that pass the test. -/
def skipWhile (test : UInt8 → Bool) : Reader Unit := fun cursor =>
  .ok () { cursor with index := scan cursor.bytes test cursor.left cursor.index }

/-- Passes over white space and looks at the byte after it. -/
def peekToken : Reader (Option UInt8) := do
  skipWhile isSpace
  peek

/-- Looks at the first byte of a value, which has to be there. -/
def peekValue : Reader UInt8 := do
  match ← peekToken with
  | some value => return value
  | none => refuseNext .endInValue

/-- Reads the given rest of a word. -/
def word : List Char → Reader Unit
  | [] => return ()
  | expected :: rest => do
    match ← next with
    | none => refuse .endInValue
    | some value => if value = byte expected then word rest else refuse .expectedWord

def isDigit (value : UInt8) : Bool := 0x30 ≤ value && value ≤ 0x39

/-- The value of a digit. -/
def digitValue (value : UInt8) : Nat := value.toNat - 0x30

/-! ### Numbers -/

/-- The power `10 ^ exponent`, for an exponent up to 308. -/
def powerOfTen (exponent : Nat) : Float := Float.ofScientific 1 false exponent

/-- Divides by `1e308` until at most 308 powers of ten are left. -/
def scaledDown : Nat → Float → Nat → Float × Nat
  | 0, value, exponent => (value, exponent)
  | fuel + 1, value, exponent =>
    if exponent ≤ 308 then (value, exponent)
    else if value == 0.0 then (value, 0)
    else scaledDown fuel (value / powerOfTen 308) (exponent - 308)

/-- The product `significand * 10 ^ exponent` by one multiplication or by divisions of floats, which
is how documents are read: not always the nearest float. -/
def floatOfParts (positive : Bool) (significand : Nat) (exponent : Int) : Reader Float := do
  let magnitude := Float.ofNat significand
  let value ←
    if 0 ≤ exponent then
      if exponent ≤ 308 then
        let value := magnitude * powerOfTen exponent.toNat
        if value.isInf then refuse .numberOutOfRange else pure value
      else if magnitude == 0.0 then pure magnitude
      else refuse .numberOutOfRange
    else
      let (value, rest) := scaledDown 5 magnitude (min (-exponent).toNat 1500)
      pure (if rest ≤ 308 then value / powerOfTen rest else 0.0)
  return if positive then value else -value

/-- The largest exponent a document may write in digits before it counts as out of bounds. -/
def exponentLimit : Nat := Width.count 31 - 1

/-- Digits of an exponent; none if the limit is passed. -/
def exponentDigits : Nat → Nat → Reader (Option Nat)
  | 0, value => return some value
  | fuel + 1, value => do
    match ← peek with
    | some digit =>
      if isDigit digit then
        skip
        let more := value * 10 + digitValue digit
        if more > exponentLimit then return none else exponentDigits fuel more
      else return some value
    | none => return some value

/-- The part of a number from its exponent mark on. -/
def exponentPart (positive : Bool) (significand : Nat) (starting : Int) : Reader Float := do
  skip
  let up ← match ← peek with
    | some sign =>
      if sign = byte '+' then do skip; pure true
      else if sign = byte '-' then do skip; pure false
      else pure true
    | none => pure true
  match ← next with
  | none => refuse .endInValue
  | some digit =>
    if isDigit digit then
      match ← exponentDigits (← left) (digitValue digit) with
      | some exponent =>
        floatOfParts positive significand (if up then starting + exponent else starting - exponent)
      | none =>
        if significand ≠ 0 && up then refuse .numberOutOfRange
        else
          skipWhile isDigit
          return if positive then 0.0 else -0.0
    else refuse .invalidNumber

/-- Ends a number after its digits: an exponent may follow. -/
def numberEnd (positive : Bool) (significand : Nat) (exponent : Int) : Reader Float := do
  match ← peek with
  | some mark =>
    if mark = byte 'e' || mark = byte 'E' then exponentPart positive significand exponent
    else floatOfParts positive significand exponent
  | none => floatOfParts positive significand exponent

/-- The largest significand that is kept exactly. -/
def significandLimit : Nat := Width.greatestNat 64

/-- Digits after the point; those that would pass the limit of the significand are dropped. -/
def fractionDigits (positive : Bool) : Nat → Nat → Nat → Int → Reader Float
  | 0, significand, _, exponent => floatOfParts positive significand exponent
  | fuel + 1, significand, count, exponent => do
    match ← peek with
    | some digit =>
      if isDigit digit then
        let more := significand * 10 + digitValue digit
        if more > significandLimit then
          skipWhile isDigit
          numberEnd positive significand exponent
        else
          skip
          fractionDigits positive fuel more (count + 1) (exponent - 1)
      else if count = 0 then refuseNext .invalidNumber
      else numberEnd positive significand exponent
    | none =>
      if count = 0 then refuseNext .endInValue
      else numberEnd positive significand exponent

/-- The part of a number from its point on. -/
def fractionPart (positive : Bool) (significand : Nat) (exponent : Int) : Reader Float := do
  skip
  fractionDigits positive ((← left) + 1) significand 0 exponent

/-- Digits of an integer that is too long to be kept exactly. -/
def longInteger (positive : Bool) (significand : Nat) : Nat → Nat → Reader Float
  | 0, exponent => floatOfParts positive significand exponent
  | fuel + 1, exponent => do
    match ← peek with
    | some digit =>
      if isDigit digit then
        skip
        longInteger positive significand fuel (exponent + 1)
      else if digit = byte '.' then fractionPart positive significand exponent
      else numberEnd positive significand exponent
    | none => floatOfParts positive significand exponent

/-- Ends an integer after its digits. -/
def integerEnd (positive : Bool) (significand : Nat) : Reader Number := do
  let isFloat := fun (mark : UInt8) => mark = byte 'e' || mark = byte 'E'
  match ← peek with
  | some mark =>
    if mark = byte '.' then return .float (← fractionPart positive significand 0)
    else if isFloat mark then return .float (← exponentPart positive significand 0)
    else return whole
  | none => return whole
where
  whole : Number :=
    if positive then .integer significand
    else if significand = 0 || significand > Width.count 63 then .float (-(Float.ofNat significand))
    else .integer (-(significand : Int))

/-- Further digits of an integer. -/
def integerDigits (positive : Bool) : Nat → Nat → Reader Number
  | 0, significand => integerEnd positive significand
  | fuel + 1, significand => do
    match ← peek with
    | some digit =>
      if isDigit digit then
        let more := significand * 10 + digitValue digit
        if more > significandLimit then
          return .float (← longInteger positive significand ((← left) + 1) 0)
        else
          skip
          integerDigits positive fuel more
      else integerEnd positive significand
    | none => integerEnd positive significand

/-- A number after its sign. -/
def number (positive : Bool) : Reader Number := do
  match ← next with
  | none => refuse .endInValue
  | some digit =>
    if digit = byte '0' then
      match ← peek with
      | some more =>
        if isDigit more then refuseNext .invalidNumber else integerEnd positive 0
      | none => integerEnd positive 0
    else if isDigit digit then integerDigits positive ((← left) + 1) (digitValue digit)
    else refuse .invalidNumber

/-! ### Strings -/

/-- The value of a hexadecimal digit. -/
def hexValue? (value : UInt8) : Option Nat :=
  if isDigit value then some (digitValue value)
  else if 0x61 ≤ value && value ≤ 0x66 then some (value.toNat - 0x61 + 10)
  else if 0x41 ≤ value && value ≤ 0x46 then some (value.toNat - 0x41 + 10)
  else none

/-- Four hexadecimal digits. -/
def hexEscape : Reader Nat := fun cursor =>
  if cursor.left < 4 then
    let ended := { cursor with index := cursor.bytes.size }
    .error ⟨.grammar .endInString, some ended.place⟩ ended
  else
    let after := cursor.advanced 4
    let digits := (List.range 4).map fun offset =>
      (cursor.bytes[cursor.index + offset]?).bind hexValue?
    match digits with
    | [some a, some b, some c, some d] => .ok (((a * 16 + b) * 16 + c) * 16 + d) after
    | _ => .error ⟨.grammar .invalidEscape, some after.place⟩ after

/-- The next byte of a string, which has to be there. -/
def nextInString : Reader UInt8 := do
  match ← next with
  | some value => return value
  | none => refuse .endInString

/-- Looks at the next byte of a string, which has to be there. -/
def peekInString : Reader UInt8 := do
  match ← peek with
  | some value => return value
  | none => refuse .endInString

/-- The UTF-8 bytes of a code point. -/
def bytesOf (code : Nat) : ByteArray := (String.singleton (Char.ofNat code)).toUTF8

/-- A character written as one or two groups of four hexadecimal digits. -/
def unicodeEscape : Reader ByteArray := do
  let first ← hexEscape
  if 0xDC00 ≤ first && first ≤ 0xDFFF then refuse .loneSurrogate
  else if first < 0xD800 || first > 0xDBFF then return bytesOf first
  else
    let slash ← peekInString
    skip
    if slash ≠ byte '\\' then refuse .unpairedEscape
    else
      let mark ← peekInString
      skip
      if mark ≠ byte 'u' then refuse .unpairedEscape
      else
        let second ← hexEscape
        if second < 0xDC00 || second > 0xDFFF then refuse .loneSurrogate
        else return bytesOf ((first - 0xD800) * 0x400 + (second - 0xDC00) + 0x10000)

/-- The bytes an escape stands for. -/
def escape : Reader ByteArray := do
  let mark ← nextInString
  if mark = byte '"' || mark = byte '\\' || mark = byte '/' then return ⟨#[mark]⟩
  else if mark = byte 'b' then return bytesOf 0x08
  else if mark = byte 'f' then return bytesOf 0x0c
  else if mark = byte 'n' then return bytesOf 0x0a
  else if mark = byte 'r' then return bytesOf 0x0d
  else if mark = byte 't' then return bytesOf 0x09
  else if mark = byte 'u' then unicodeEscape
  else refuse .invalidEscape

/-- Bytes of a string that stand for themselves. -/
def isPlain (value : UInt8) : Bool :=
  value ≠ byte '"' && value ≠ byte '\\' && value ≥ 0x20

/-- The bytes of a string between its quotes. -/
def stringBytes : Nat → ByteArray → Reader ByteArray
  | 0, _ => refuse .endInString
  | fuel + 1, built => do
    let start := (← get).index
    skipWhile isPlain
    let cursor ← get
    let built := built ++ cursor.bytes.extract start cursor.index
    match ← peek with
    | none => refuse .endInString
    | some mark =>
      if mark = byte '"' then return built
      else
        skip
        if mark = byte '\\' then stringBytes fuel (built ++ (← escape))
        else refuse .controlCharacter

/-- A string after its opening quote. -/
def string : Reader String := do
  let bytes ← stringBytes ((← left) + 1) ByteArray.empty
  match String.fromUTF8? bytes with
  | some text =>
    skip
    return text
  | none => refuse .invalidCodePoint

/-! ### Passing over values -/

/-- Passes over the rest of a string. -/
def skipString : Nat → Reader Unit
  | 0 => refuse .endInString
  | fuel + 1 => do
    skipWhile isPlain
    match ← peek with
    | none => refuse .endInString
    | some mark =>
      if mark = byte '"' then skip
      else if mark = byte '\\' then
        skip
        let kind ← nextInString
        if kind = byte 'u' then
          let _ ← hexEscape
          skipString fuel
        else if (byte '"' :: "\\/bfnrt".toList.map byte).contains kind then skipString fuel
        else refuse .invalidEscape
      else refuse .controlCharacter

/-- Passes over an exponent. -/
def skipExponent : Reader Unit := do
  skip
  match ← peek with
  | some sign => if sign = byte '+' || sign = byte '-' then skip
  | none => return ()
  match ← next with
  | some digit => if isDigit digit then skipWhile isDigit else refuse .invalidNumber
  | none => refuse .invalidNumber

/-- Passes over a number after its sign. -/
def skipNumber : Reader Unit := do
  match ← next with
  | none => refuse .invalidNumber
  | some digit =>
    if digit = byte '0' then
      match ← peek with
      | some more => if isDigit more then refuseNext .invalidNumber else numberTail
      | none => numberTail
    else if isDigit digit then
      skipWhile isDigit
      numberTail
    else refuse .invalidNumber
where
  numberTail : Reader Unit := do
    match ← peek with
    | some mark =>
      if mark = byte '.' then
        skip
        match ← peek with
        | some digit =>
          if isDigit digit then
            skipWhile isDigit
            match ← peek with
            | some mark => if mark = byte 'e' || mark = byte 'E' then skipExponent
            | none => return ()
          else refuseNext .invalidNumber
        | none => refuseNext .invalidNumber
      else if mark = byte 'e' || mark = byte 'E' then skipExponent
    | none => return ()

/-- Passes over the key of an entry and its colon. -/
def skipKey : Reader Unit := do
  match ← peekToken with
  | some mark => if mark = byte '"' then skip else refuseNext .keyNotText
  | none => refuseNext .endInObject
  skipString ((← left) + 1)
  match ← peekToken with
  | some mark => if mark = byte ':' then skip else refuseNext .expectedColon
  | none => refuseNext .endInObject

/-- After a value inside the open frames, or after the opening of the innermost one: closes frames
and stops before the next value; answers the frames that are open then. -/
def skipBetween (entered : Bool) : Nat → List UInt8 → Reader (List UInt8)
  | 0, frames => return frames
  | _ + 1, [] => return []
  | fuel + 1, frame :: outer => do
    let isList := frame = byte '['
    match ← peekToken with
    | none => refuseNext (if isList then .endInList else .endInObject)
    | some mark =>
      if mark = byte ',' && !entered then
        skip
        if !isList then skipKey
        return frame :: outer
      else if (isList && mark = byte ']') || (!isList && mark = byte '\x7d') then
        skip
        skipBetween false fuel outer
      else if entered then
        if !isList then skipKey
        return frame :: outer
      else refuseNext (if isList then .expectedListCommaOrEnd else .expectedObjectCommaOrEnd)

/-- Passes over values until no frame is open. -/
def skipValues : Nat → List UInt8 → Reader Unit
  | 0, _ => refuse .endInValue
  | fuel + 1, frames => do
    let mark ← peekValue
    let opened ←
      if mark = byte 'n' then do skip; word "ull".toList; pure false
      else if mark = byte 't' then do skip; word "rue".toList; pure false
      else if mark = byte 'f' then do skip; word "alse".toList; pure false
      else if mark = byte '-' then do skip; skipNumber; pure false
      else if isDigit mark then do skipNumber; pure false
      else if mark = byte '"' then do skip; skipString ((← left) + 1); pure false
      else if mark = byte '[' || mark = byte '\x7b' then do skip; pure true
      else refuseNext .expectedValue
    let frames := if opened then mark :: frames else frames
    match ← skipBetween opened ((← left) + 2) frames with
    | [] => return ()
    | open_ => skipValues fuel open_

/-- Passes over one value. -/
def skipValue : Reader Unit := do
  skipValues ((← left) + 2) []

/-! ### Lists and objects -/

/-- Whether another item of a list follows. -/
def hasItem (isFirst : Bool) : Reader Bool := do
  match ← peekToken with
  | none => refuseNext .endInList
  | some mark =>
    if mark = byte ']' then return false
    else if isFirst then return true
    else if mark = byte ',' then
      skip
      match ← peekToken with
      | some mark => if mark = byte ']' then refuseNext .trailingComma else return true
      | none => refuseNext .endInValue
    else refuseNext .expectedListCommaOrEnd

/-- Whether another entry of an object follows. -/
def hasEntry (isFirst : Bool) : Reader Bool := do
  match ← peekToken with
  | none => refuseNext .endInObject
  | some mark =>
    if mark = byte '\x7d' then return false
    else if isFirst then
      if mark = byte '"' then return true else refuseNext .keyNotText
    else if mark = byte ',' then
      skip
      match ← peekToken with
      | some mark =>
        if mark = byte '"' then return true
        else if mark = byte '\x7d' then refuseNext .trailingComma
        else refuseNext .keyNotText
      | none => refuseNext .endInValue
    else refuseNext .expectedObjectCommaOrEnd

/-- The key of an entry. -/
def key : Reader String := do
  skip
  string

/-- The colon between a key and its value. -/
def colon : Reader Unit := do
  match ← peekToken with
  | some mark => if mark = byte ':' then skip else refuseNext .expectedColon
  | none => refuseNext .endInObject

/-- The end of a list. -/
def listEnd : Reader Unit := do
  match ← peekToken with
  | some mark =>
    if mark = byte ']' then skip
    else if mark = byte ',' then
      skip
      match ← peekToken with
      | some mark =>
        if mark = byte ']' then refuseNext .trailingComma else refuseNext .trailingCharacters
      | none => refuseNext .trailingCharacters
    else refuseNext .trailingCharacters
  | none => refuseNext .endInList

/-- The end of an object. -/
def objectEnd : Reader Unit := do
  match ← peekToken with
  | some mark =>
    if mark = byte '\x7d' then skip
    else if mark = byte ',' then refuseNext .trailingComma
    else refuseNext .trailingCharacters
  | none => refuseNext .endInObject

/-- Reads the inside and the end of a list or an object whose opening comes next.  The end is looked
for even if the inside is refused, and the fault of the inside wins. -/
def nested (inside : Reader α) (ending : Reader Unit) : Reader α := fun cursor =>
  if cursor.depth ≤ 1 then .error ⟨.grammar .tooDeep, some cursor.nextPlace⟩ cursor
  else
    match inside { cursor.advanced 1 with depth := cursor.depth - 1 } with
    | .ok value after =>
      match ending { after with depth := cursor.depth } with
      | .ok _ final => .ok value final
      | .error fault final => .error fault final
    | .error fault after =>
      match ending { after with depth := cursor.depth } with
      | .ok _ final => .error fault final
      | .error _ final => .error fault final

/-- The items of a list, each read in the same way. -/
def items (item : Reader α) : Nat → Bool → List α → Reader (List α)
  | 0, _, built => return built.reverse
  | fuel + 1, isFirst, built => do
    if ← hasItem isFirst then items item fuel false ((← item) :: built)
    else return built.reverse

/-- The entries of an object, each value read in the same way. -/
def entries (value : Reader α) : Nat → Bool → List (String × α) → Reader (List (String × α))
  | 0, _, built => return built.reverse
  | fuel + 1, isFirst, built => do
    if ← hasEntry isFirst then
      let name ← key
      colon
      entries value fuel false ((name, ← value) :: built)
    else return built.reverse

/-- A list. -/
def list (item : Reader α) : Reader (List α) :=
  nested (do items item ((← left) + 1) true []) listEnd

/-- An object, its entries in the order of the text. -/
def object (value : Reader α) : Reader (List (String × α)) :=
  nested (do entries value ((← left) + 1) true []) objectEnd

/-- A value with its entries in the order of the text, repeated keys included, inside so many levels
of nesting. -/
def rawWithin : Nat → Reader Value
  | 0 => refuseNext .tooDeep
  | depth + 1 => placed do
    let mark ← peekValue
    if mark = byte 'n' then do skip; word "ull".toList; return .null
    else if mark = byte 't' then do skip; word "rue".toList; return .boolean true
    else if mark = byte 'f' then do skip; word "alse".toList; return .boolean false
    else if mark = byte '-' then do skip; return .number (← number false)
    else if isDigit mark then return .number (← number true)
    else if mark = byte '"' then do skip; return .text (← string)
    else if mark = byte '[' then return .array (← list (rawWithin depth))
    else if mark = byte '\x7b' then return .object (← object (rawWithin depth))
    else refuseNext .expectedValue

/-- A value with its entries in the order of the text, repeated keys included. -/
def rawValue : Reader Value := do
  rawWithin (← get).depth

/-- A value; the last of several entries with one key counts. -/
def value : Reader Value := do
  return (← rawValue).settled

/-- Refuses anything but white space after a document. -/
def documentEnd : Reader Unit := do
  match ← peekToken with
  | some _ => refuseNext .trailingCharacters
  | none => return ()

/-- Reads a whole document. -/
def whole (reader : Reader α) (bytes : ByteArray) : Except Fault α :=
  match (do let result ← reader; documentEnd; return result : Reader α) (Cursor.start bytes) with
  | .ok result _ => .ok result
  | .error fault _ => .error fault

end Reader

/-- The value of a document. -/
def readBytes (bytes : ByteArray) : Except Fault Value := Reader.value.whole bytes

/-- The value of a document in a text. -/
def readText (text : String) : Except Fault Value := readBytes text.toUTF8

end Vetting.Json
