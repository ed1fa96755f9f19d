import Vetting.Json.Documented
import Vetting.Width

/-!
Contract: moments in time.

Owns:
- moments, counted from the beginning of 1970;
- the calendar: the day number of a date and the date of a day number;
- the text of a moment, and the texts that denote one;
- milliseconds between two moments.

Does not own: the clock.

A text gives a date, a time of day and an offset from universal time; single
parts may be written with fewer digits, and white space may stand between them.
Moments are written in universal time with no, three, six or nine digits after
the seconds, as many as are needed.  A leap second is the sixtieth second of its
minute.
-/

namespace Vetting

/-- A moment.  Within a leap second the nanoseconds go on counting beyond a full second. -/
structure Timestamp where
  seconds : Int
  nanoseconds : Nat
deriving DecidableEq, Inhabited

namespace Timestamp

/-! ### The calendar -/

/-- The days of the year before the given month, in years that begin in March. -/
private def daysBeforeMonth (month : Nat) : Nat := (153 * month + 2) / 5

/-- The number of a day; the first day of 1970 has number zero. -/
def dayNumber (year : Int) (month day : Nat) : Int :=
  let shifted := (month + 9) % 12
  let years := if month ≤ 2 then year - 1 else year
  let era := Int.fdiv years 400
  let ofEra := Int.fmod years 400
  era * 146097 + ofEra * 365 + Int.fdiv ofEra 4 - Int.fdiv ofEra 100 +
    (daysBeforeMonth shifted + day : Nat) - 719469

/-- The year, month and day of a day number. -/
def dateOf (number : Int) : Int × Nat × Nat :=
  let shifted := number + 719468
  let era := Int.fdiv shifted 146097
  let ofEra := (Int.fmod shifted 146097).toNat
  let year := (ofEra - ofEra / 1460 + ofEra / 36524 - ofEra / 146096) / 365
  let ofYear := ofEra - (365 * year + year / 4 - year / 100)
  let month := (5 * ofYear + 2) / 153
  let day := ofYear - daysBeforeMonth month + 1
  let civil := if month < 10 then month + 3 else month - 9
  (era * 400 + year + (if civil ≤ 2 then 1 else 0), civil, day)

def isLeapYear (year : Int) : Bool :=
  Int.fmod year 4 == 0 && (Int.fmod year 100 != 0 || Int.fmod year 400 == 0)

def daysOfMonth (year : Int) (month : Nat) : Nat :=
  if month = 2 then (if isLeapYear year then 29 else 28)
  else if [4, 6, 9, 11].contains month then 30
  else 31

/-! ### Writing -/

private def paddedNumber (width : Nat) (number : Nat) : String :=
  let digits := toString number
  String.ofList (List.replicate (width - digits.length) '0') ++ digits

private def yearText (year : Int) : String :=
  if 0 ≤ year ∧ year ≤ 9999 then paddedNumber 4 year.toNat
  else if year < 0 then "-" ++ paddedNumber 4 year.natAbs
  else "+" ++ paddedNumber 4 year.natAbs

/-- The digits after the seconds. -/
private def fractionText (nanoseconds : Nat) : String :=
  if nanoseconds = 0 then ""
  else if nanoseconds % 1000000 = 0 then "." ++ paddedNumber 3 (nanoseconds / 1000000)
  else if nanoseconds % 1000 = 0 then "." ++ paddedNumber 6 (nanoseconds / 1000)
  else "." ++ paddedNumber 9 nanoseconds

/-- The text of a moment. -/
def text (moment : Timestamp) : String :=
  let (year, month, day) := dateOf (Int.fdiv moment.seconds 86400)
  let ofDay := (Int.fmod moment.seconds 86400).toNat
  let second := ofDay % 60 + moment.nanoseconds / 1000000000
  yearText year ++ "-" ++ paddedNumber 2 month ++ "-" ++ paddedNumber 2 day ++ "T" ++
    paddedNumber 2 (ofDay / 3600) ++ ":" ++ paddedNumber 2 (ofDay / 60 % 60) ++ ":" ++
    paddedNumber 2 second ++ fractionText (moment.nanoseconds % 1000000000) ++ "Z"

/-! ### Reading -/

/-- Why a text denotes no moment. -/
inductive Fault where
  | tooShort
  | tooLong
  | invalid
  | outOfRange
  | impossible
deriving DecidableEq, Inhabited

def Fault.message : Fault → String
  | .tooShort => "premature end of input"
  | .tooLong => "trailing input"
  | .invalid => "input contains invalid characters"
  | .outOfRange => "input is out of range"
  | .impossible => "no possible date and time matching input"

/-- A number at the beginning of a text, and what follows it. -/
private def numberAhead (limit : Nat) (text : List Char) : Except Fault (Nat × List Char) :=
  let digits := (text.take limit).takeWhile Char.isDigit
  match text, digits with
  | [], _ => .error .tooShort
  | _, [] => .error .invalid
  | _, digits =>
    let value := digits.foldl (fun value digit => value * 10 + (digit.toNat - '0'.toNat)) 0
    if value < Width.count 63 then .ok (value, text.drop digits.length) else .error .outOfRange

private def skipBlanks (text : List Char) : List Char := text.dropWhile Text.isBlank

/-- A number of at most two digits between two bounds. -/
private def part (least greatest : Nat) (text : List Char) : Except Fault (Nat × List Char) := do
  let (value, rest) ← numberAhead 2 (skipBlanks text)
  if least ≤ value ∧ value ≤ greatest then return (value, rest) else .error .outOfRange

private def sign (expected : Char) (text : List Char) : Except Fault (List Char) :=
  match skipBlanks text with
  | [] => .error .tooShort
  | character :: rest => if character = expected then .ok rest else .error .invalid

private def year (text : List Char) : Except Fault (Int × List Char) := do
  let (value, rest) ← match skipBlanks text with
    | '-' :: digits => do
      let (value, rest) ← numberAhead digits.length digits
      pure (-(value : Int), rest)
    | '+' :: digits => do
      let (value, rest) ← numberAhead digits.length digits
      pure ((value : Int), rest)
    | digits => do
      let (value, rest) ← numberAhead 4 digits
      pure ((value : Int), rest)
  if Width.leastInt 32 ≤ value ∧ value ≤ Width.greatestInt 32 then return (value, rest)
  else .error .outOfRange

/-- The nanoseconds after a point; digits beyond the ninth do not count. -/
private def fraction (text : List Char) : Except Fault (Nat × List Char) :=
  match text with
  | '.' :: rest => do
    let (value, after) ← numberAhead 9 rest
    let count := rest.length - after.length
    return (value * Nat.pow 10 (9 - count), after.dropWhile Char.isDigit)
  | other => .ok (0, other)

private def twoDigits (text : List Char) : Except Fault (Char × Char × List Char) :=
  match text with
  | first :: second :: rest => .ok (first, second, rest)
  | [only] => .error (if only.utf8Size < 2 then .tooShort else .invalid)
  | [] => .error .tooShort

private def digitValue (digit : Char) : Nat := digit.toNat - '0'.toNat

/-- The hours and minutes of an offset, as seconds. -/
private def offsetSize (text : List Char) : Except Fault (Int × List Char) := do
  let (first, second, rest) ← twoDigits text
  if !(first.isDigit && second.isDigit) then throw .invalid
  let hours := digitValue first * 10 + digitValue second
  let (first, second, rest) ←
    twoDigits (rest.dropWhile fun character => character = ':' || Text.isBlank character)
  if !(first.isDigit && second.isDigit) then throw .invalid
  if first > '5' then throw .outOfRange
  return (hours * 3600 + (digitValue first * 10 + digitValue second) * 60, rest)

/-- The offset from universal time, in seconds. -/
private def offset (text : List Char) : Except Fault (Int × List Char) :=
  match text.map Char.toLower with
  | 'u' :: 't' :: 'c' :: _ => .ok (0, text.drop 3)
  | 'z' :: _ => .ok (0, text.drop 1)
  | '+' :: _ => offsetSize (text.drop 1)
  | sign :: _ =>
    if sign = '-' ∨ sign = '−' then do
      let (size, rest) ← offsetSize (text.drop 1)
      return (-size, rest)
    else .error .invalid
  | [] => .error .tooShort

/-- Years that the calendar of this library covers. -/
private def yearInRange (year : Int) : Bool := -262143 ≤ year && year ≤ 262142

/-- The moment that a text denotes. -/
def read (text : String) : Except Fault Timestamp := do
  let (year, rest) ← year text.toList
  let (month, rest) ← part 1 12 (← sign '-' rest)
  let (day, rest) ← part 1 31 (← sign '-' rest)
  let rest ← match rest with
    | [] => throw .tooShort
    | mark :: rest =>
      if mark = 't' ∨ mark = 'T' ∨ mark = ' ' then pure rest else throw .invalid
  let (hour, rest) ← part 0 23 rest
  let (minute, rest) ← part 0 59 (← sign ':' rest)
  let (second, rest) ← part 0 60 (← sign ':' rest)
  let (nanoseconds, rest) ← fraction rest
  let (offset, rest) ← offset (skipBlanks rest)
  if !(skipBlanks rest).isEmpty then throw .tooLong
  if !yearInRange year || day > daysOfMonth year month then throw .outOfRange
  if offset.natAbs ≥ 86400 then throw .outOfRange
  let (second, nanoseconds) :=
    if second = 60 then (59, nanoseconds + 1000000000) else (second, nanoseconds)
  let ofDay := hour * 3600 + minute * 60 + second
  let seconds := dayNumber year month day * 86400 + ofDay - offset
  if !yearInRange (dateOf (Int.fdiv seconds 86400)).1 then throw .impossible
  return ⟨seconds, nanoseconds⟩

def read? (text : String) : Option Timestamp := (read text).toOption

def shape : Json.Shape :=
  Json.Shape.parsed "an RFC 3339 formatted date and time string" fun text =>
    match read text with
    | .ok _ => none
    | .error fault => some fault.message

def toValue (moment : Timestamp) : Json.Value := .text moment.text

def ofValue? : Json.Value → Option Timestamp
  | .text text => read? text
  | _ => none

/-! ### Durations -/

/-- The whole milliseconds from one moment to a later one; zero if it is not later. -/
def millisecondsUntil (first second : Timestamp) : Nat :=
  (((second.seconds - first.seconds) * 1000000000 +
    ((second.nanoseconds : Int) - first.nanoseconds)) / 1000000).toNat

/-- The moment a number of milliseconds later. -/
def plusMilliseconds (moment : Timestamp) (milliseconds : Int) : Timestamp :=
  let total := (moment.nanoseconds : Int) + milliseconds * 1000000
  ⟨moment.seconds + Int.fdiv total 1000000000, (Int.fmod total 1000000000).toNat⟩

instance : Json.Documented Timestamp := ⟨shape, ofValue?, toValue⟩

end Timestamp

end Vetting
