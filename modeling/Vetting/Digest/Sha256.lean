import Vetting.Text.Hexadecimal

/-!
Contract: the SHA-256 digest of a byte sequence.

Owns:
- padding to blocks of 64 bytes;
- the compression of one block;
- digests as lower-case hexadecimal text.

Does not own: other digests of the family.
-/

namespace Vetting.Digest.Sha256

/-- Eight words that stand for what has been read. -/
structure State where
  a : UInt32
  b : UInt32
  c : UInt32
  d : UInt32
  e : UInt32
  f : UInt32
  g : UInt32
  h : UInt32

namespace State

/-- The words before anything has been read. -/
def initial : State :=
  ⟨0x6a09e667, 0xbb67ae85, 0x3c6ef372, 0xa54ff53a, 0x510e527f, 0x9b05688c, 0x1f83d9ab, 0x5be0cd19⟩

def toList (state : State) : List UInt32 :=
  [state.a, state.b, state.c, state.d, state.e, state.f, state.g, state.h]

/-- Adds word by word. -/
def plus (first second : State) : State where
  a := first.a + second.a
  b := first.b + second.b
  c := first.c + second.c
  d := first.d + second.d
  e := first.e + second.e
  f := first.f + second.f
  g := first.g + second.g
  h := first.h + second.h

end State

/-- The constant of each round. -/
def roundConstants : List UInt32 := [
  0x428a2f98, 0x71374491, 0xb5c0fbcf, 0xe9b5dba5, 0x3956c25b, 0x59f111f1, 0x923f82a4, 0xab1c5ed5,
  0xd807aa98, 0x12835b01, 0x243185be, 0x550c7dc3, 0x72be5d74, 0x80deb1fe, 0x9bdc06a7, 0xc19bf174,
  0xe49b69c1, 0xefbe4786, 0x0fc19dc6, 0x240ca1cc, 0x2de92c6f, 0x4a7484aa, 0x5cb0a9dc, 0x76f988da,
  0x983e5152, 0xa831c66d, 0xb00327c8, 0xbf597fc7, 0xc6e00bf3, 0xd5a79147, 0x06ca6351, 0x14292967,
  0x27b70a85, 0x2e1b2138, 0x4d2c6dfc, 0x53380d13, 0x650a7354, 0x766a0abb, 0x81c2c92e, 0x92722c85,
  0xa2bfe8a1, 0xa81a664b, 0xc24b8b70, 0xc76c51a3, 0xd192e819, 0xd6990624, 0xf40e3585, 0x106aa070,
  0x19a4c116, 0x1e376c08, 0x2748774c, 0x34b0bcb5, 0x391c0cb3, 0x4ed8aa4a, 0x5b9cca4f, 0x682e6ff3,
  0x748f82ee, 0x78a5636f, 0x84c87814, 0x8cc70208, 0x90befffa, 0xa4506ceb, 0xbef9a3f7, 0xc67178f2]

private def turned (word amount : UInt32) : UInt32 :=
  (word >>> amount) ||| (word <<< (32 - amount))

private def spread (word : UInt32) (first second third : UInt32) : UInt32 :=
  turned word first ^^^ turned word second ^^^ turned word third

/-- One round with the word of the schedule and the constant of the round. -/
private def roundStep (state : State) (word constant : UInt32) : State :=
  let ⟨a, b, c, d, e, f, g, h⟩ := state
  let chosen := (e &&& f) ^^^ (~~~e &&& g)
  let majority := (a &&& b) ^^^ (a &&& c) ^^^ (b &&& c)
  let first := h + spread e 6 11 25 + chosen + constant + word
  let second := spread a 2 13 22 + majority
  ⟨first + second, a, b, c, d + first, e, f, g⟩

/-- The word of the schedule that follows sixteen others. -/
private def nextWord (words : Vector UInt32 16) : UInt32 :=
  let small (word first second shift : UInt32) : UInt32 :=
    turned word first ^^^ turned word second ^^^ (word >>> shift)
  let wordAt (place : Nat) : UInt32 := words.toArray.getD place 0
  small (wordAt 14) 17 19 10 + wordAt 9 + small (wordAt 1) 7 18 3 + wordAt 0

private def shifted (words : Vector UInt32 16) (last : UInt32) : Vector UInt32 16 :=
  Vector.ofFn fun place => words.toArray.getD (place.val + 1) last

/-- The rounds of a block, one for each constant. -/
private def rounds : List UInt32 → State → Vector UInt32 16 → State
  | [], state, _ => state
  | constant :: rest, state, words =>
    rounds rest (roundStep state (words.toArray.getD 0 0) constant) (shifted words (nextWord words))

private def compress (state : State) (block : Vector UInt32 16) : State :=
  state.plus (rounds roundConstants state block)

/-- The byte at a place of the padded sequence: the bytes, a mark, and their number in bits at the
end of the last block. -/
private def paddedByte (bytes : ByteArray) (size place : Nat) : UInt8 :=
  if place < bytes.size then bytes[place]?.getD 0
  else if place = bytes.size then 0x80
  else if place + 8 < size then 0
  else UInt8.ofNat (bytes.size * 8 / Nat.pow 256 (size - 1 - place))

private def blockAt (bytes : ByteArray) (size number : Nat) : Vector UInt32 16 :=
  Vector.ofFn fun place =>
    let byteAt (offset : Nat) : UInt32 :=
      (paddedByte bytes size (64 * number + 4 * place.val + offset)).toUInt32
    (byteAt 0 <<< 24) ||| (byteAt 1 <<< 16) ||| (byteAt 2 <<< 8) ||| byteAt 3

/-- The bytes of a word, the highest one first. -/
private def bytesOfWord (word : UInt32) : List UInt8 :=
  [(word >>> 24).toUInt8, (word >>> 16).toUInt8, (word >>> 8).toUInt8, word.toUInt8]

/-- The digest of a byte sequence as text. -/
def ofBytes (bytes : ByteArray) : String :=
  let count := (bytes.size + 8) / 64 + 1
  let last := (List.range count).foldl
    (fun state number => compress state (blockAt bytes (64 * count) number)) .initial
  Text.Hexadecimal.ofBytes ⟨(last.toList.flatMap bytesOfWord).toArray⟩

end Vetting.Digest.Sha256
