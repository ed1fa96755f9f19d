/-!
Contract: names of hosts beyond ASCII, in letters, digits and hyphens.

Owns: the encoding of one part of a name.

Does not own: cutting a name into parts, and folding the case of its letters.

The ASCII characters come first.  For each other character, in ascending order, the
distance to the one before it is written in digits of base 36 whose thresholds adapt
to the distances seen so far.
-/

namespace Vetting.Web.Punycode

/-- The character of a digit: letters stand for 0 to 25, and decimal digits for 26 to 35. -/
def digit (value : Nat) : Char :=
  if value < 26 then Char.ofNat ('a'.toNat + value) else Char.ofNat ('0'.toNat + (value - 26))

/-- The threshold of a digit at a position that is a multiple of 36. -/
def threshold (position bias : Nat) : Nat :=
  if position ≤ bias then 1 else if bias + 26 ≤ position then 26 else position - bias

/-- Scales a distance down until it is small, counting the steps by 36. -/
private def scaled (delta position : Nat) : Nat × Nat :=
  if 455 < delta then scaled (delta / 35) (position + 36) else (delta, position)
termination_by delta
decreasing_by exact Nat.div_lt_self (by omega) (by omega)

/-- The bias after a distance. -/
def adapted (delta count : Nat) (isFirst : Bool) : Nat :=
  let damped := if isFirst then delta / 700 else delta / 2
  let (delta, position) := scaled (damped + damped / count) 0
  position + 36 * delta / (delta + 38)

/-- The digits of a distance, lowest first; each digit at its threshold or above says that more
follow.  The first number bounds how many there are. -/
private def digitsOf : Nat → Nat → Nat → Nat → List Char
  | 0, _, _, _ => []
  | count + 1, bias, position, value =>
    let low := threshold position bias
    if value < low then [digit value]
    else digit (low + (value - low) % (36 - low)) ::
      digitsOf count bias (position + 36) ((value - low) / (36 - low))

/-- How far the encoding has come. -/
private structure Progress where
  delta : Nat
  bias : Nat
  /-- Characters written so far. -/
  written : Nat
  output : List Char

/-- Passes over all characters for the sake of those that equal the given one. -/
private def passOver (isFirstAt : Nat) (current : Nat) (progress : Progress) (code : Nat) :
    Progress :=
  if code < current then { progress with delta := progress.delta + 1 }
  else if code = current then {
    delta := 0
    bias := adapted progress.delta (progress.written + 1) (progress.written == isFirstAt)
    written := progress.written + 1
    output := progress.output ++ digitsOf 64 progress.bias 36 progress.delta }
  else progress

/-- Encodes one part of a name. -/
def encode (characters : List Char) : List Char :=
  let basic := characters.filter fun character => character.toNat < 128
  let codes := characters.map Char.toNat
  let others := ((codes.filter fun code => 128 ≤ code).mergeSort).eraseDups
  let start : Progress :=
    ⟨0, 72, basic.length, if basic.isEmpty then [] else basic ++ ['-']⟩
  let (_, ended) := others.foldl (fun (before, progress) current =>
    let delta := progress.delta + (current - before) * (progress.written + 1)
    let passed := codes.foldl (passOver basic.length current) { progress with delta }
    (current + 1, { passed with delta := passed.delta + 1 })) (128, start)
  ended.output

end Vetting.Web.Punycode
