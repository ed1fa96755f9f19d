import Vetting.Text.Hexadecimal

/-!
Contract: the BLAKE3 digest of a byte sequence.

Owns:
- the compression of one block;
- chunks of 1024 bytes, and the tree that joins them;
- digests of 32 bytes as lower-case hexadecimal text.

Does not own: keyed digests, derived keys and longer outputs.

Chunks are joined in pairs, level by level, and a chunk without a partner moves up
a level as it is.  So the left part of every join covers a power of two of chunks.
-/

namespace Vetting.Digest

/-- Eight words that stand for what has been read. -/
abbrev ChainingValue : Type := Vector UInt32 8

/-- Sixteen words: a block of input, or the state while it is worked in. -/
abbrev Block : Type := Vector UInt32 16

/-- The words a chaining value starts from. -/
def initialWords : ChainingValue :=
  #v[0x6A09E667, 0xBB67AE85, 0x3C6EF372, 0xA54FF53A, 0x510E527F, 0x9B05688C, 0x1F83D9AB, 0x5BE0CD19]

/-- Which word of the block stands at each place in the next round. -/
def permutation : Vector (Fin 16) 16 :=
  #v[2, 6, 3, 10, 7, 0, 4, 13, 1, 11, 12, 5, 9, 14, 15, 8]

/-- What a compression is for; the marks of one compression are added. -/
def chunkStart : UInt32 := 1

def chunkEnd : UInt32 := 2

def parentMark : UInt32 := 4

def rootMark : UInt32 := 8

private def rotateRight (word amount : UInt32) : UInt32 :=
  (word >>> amount) ||| (word <<< (32 - amount))

/-- Works two words into four places of the state. -/
private def mix (state : Block) (a b c d : Fin 16) (first second : UInt32) : Block :=
  let va := state[a] + state[b] + first
  let vd := rotateRight (state[d] ^^^ va) 16
  let vc := state[c] + vd
  let vb := rotateRight (state[b] ^^^ vc) 12
  let va := va + vb + second
  let vd := rotateRight (vd ^^^ va) 8
  let vc := vc + vd
  let vb := rotateRight (vb ^^^ vc) 7
  (((state.set a va).set b vb).set c vc).set d vd

/-- Works a block into the columns and then into the diagonals of the state. -/
private def round (state block : Block) : Block :=
  let state := mix state 0 4 8 12 block[0] block[1]
  let state := mix state 1 5 9 13 block[2] block[3]
  let state := mix state 2 6 10 14 block[4] block[5]
  let state := mix state 3 7 11 15 block[6] block[7]
  let state := mix state 0 5 10 15 block[8] block[9]
  let state := mix state 1 6 11 12 block[10] block[11]
  let state := mix state 2 7 8 13 block[12] block[13]
  mix state 3 4 9 14 block[14] block[15]

private def permuted (block : Block) : Block := Vector.ofFn fun place => block[permutation[place]]

private def rounds : Nat → Block → Block → Block
  | 0, state, _ => state
  | count + 1, state, block => rounds count (round state block) (permuted block)

/-- A compression that has not been carried out yet. -/
structure Compression where
  chaining : ChainingValue
  block : Block
  counter : UInt64
  length : UInt32
  marks : UInt32

namespace Compression

/-- The chaining value after the compression. -/
def chainingValue (compression : Compression) : ChainingValue :=
  let chaining := compression.chaining
  let state : Block := #v[
    chaining[0], chaining[1], chaining[2], chaining[3],
    chaining[4], chaining[5], chaining[6], chaining[7],
    initialWords[0], initialWords[1], initialWords[2], initialWords[3],
    compression.counter.toUInt32, (compression.counter >>> 32).toUInt32,
    compression.length, compression.marks]
  let worked := rounds 7 state compression.block
  Vector.ofFn fun place : Fin 8 =>
    worked.get ⟨place.val, by omega⟩ ^^^ worked.get ⟨place.val + 8, by omega⟩

end Compression

/-- The words of at most 64 bytes, the lowest byte of each word first. -/
private def blockOf (bytes : ByteArray) : Block :=
  Vector.ofFn fun place : Fin 16 =>
    let byteAt (offset : Nat) : UInt32 := (bytes[4 * place.val + offset]?.getD 0).toUInt32
    byteAt 0 ||| (byteAt 1 <<< 8) ||| (byteAt 2 <<< 16) ||| (byteAt 3 <<< 24)

/-- The last compression of a chunk, from the block with the given number on. -/
private def chunkFrom (chunk : ByteArray) (counter : UInt64) :
    Nat → Nat → ChainingValue → Compression
  | blocksLeft, number, chaining =>
    let bytes := chunk.extract (64 * number) (64 * number + 64)
    let first := if number = 0 then chunkStart else 0
    match blocksLeft with
    | 0 => ⟨chaining, blockOf bytes, counter, bytes.size.toUInt32, first + chunkEnd⟩
    | blocksLeft + 1 =>
      chunkFrom chunk counter blocksLeft (number + 1)
        (Compression.chainingValue ⟨chaining, blockOf bytes, counter, 64, first⟩)

/-- The last compression of the chunk with the given number. -/
private def chunkCompression (bytes : ByteArray) (number : Nat) : Compression :=
  let chunk := bytes.extract (1024 * number) (1024 * number + 1024)
  chunkFrom chunk number.toUInt64 ((chunk.size - 1) / 64) 0 initialWords

/-- The compression that joins two parts. -/
private def joined (left right : Compression) : Compression :=
  ⟨initialWords, left.chainingValue ++ right.chainingValue, 0, 64, parentMark⟩

private def pairsJoined : List Compression → List Compression
  | left :: right :: rest => joined left right :: pairsJoined rest
  | rest => rest

/-- The compression that joins all parts, of which there are at most `2 ^ levels`. -/
private def allJoined (first : Compression) : Nat → List Compression → Compression
  | _, [] => first
  | _, [only] => only
  | 0, only :: _ => only
  | levels + 1, parts => allJoined first levels (pairsJoined parts)

/-- The last compression of a byte sequence. -/
private def rootCompression (bytes : ByteArray) : Compression :=
  let count := (bytes.size - 1) / 1024 + 1
  let chunks := (List.range count).map (chunkCompression bytes)
  allJoined (chunkCompression bytes 0) count chunks

/-- The bytes of a word, the lowest one first. -/
private def wordBytes (word : UInt32) : List UInt8 :=
  [word.toUInt8, (word >>> 8).toUInt8, (word >>> 16).toUInt8, (word >>> 24).toUInt8]

/-- The digest of a byte sequence as text. -/
def ofBytes (bytes : ByteArray) : String :=
  let root := rootCompression bytes
  let words := Compression.chainingValue { root with counter := 0, marks := root.marks + rootMark }
  Text.Hexadecimal.ofBytes ⟨(words.toList.flatMap wordBytes).toArray⟩

/-- The digest of a text. -/
def ofText (text : String) : String := ofBytes text.toUTF8

end Vetting.Digest
