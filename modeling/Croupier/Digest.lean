/-!
# Digests

BLAKE2b without a key, with a digest of 32 bytes. Words of 64 bits are read from bytes with the low byte first; a block
of 128 bytes is mixed into the state in twelve rounds.
-/

namespace Croupier.Digest

/-- The first state, before the parameters are mixed in. -/
def initial : Array UInt64 := #[
  0x6a09e667f3bcc908, 0xbb67ae8584caa73b, 0x3c6ef372fe94f82b, 0xa54ff53a5f1d36f1,
  0x510e527fade682d1, 0x9b05688c2b3e6c1f, 0x1f83d9abfb41bd6b, 0x5be0cd19137e2179]

/-- The order in which a round takes the words of a block. -/
def schedule : Array (Array Nat) := #[
  #[0, 1, 2, 3, 4, 5, 6, 7, 8, 9, 10, 11, 12, 13, 14, 15],
  #[14, 10, 4, 8, 9, 15, 13, 6, 1, 12, 0, 2, 11, 7, 5, 3],
  #[11, 8, 12, 0, 5, 2, 15, 13, 10, 14, 3, 6, 7, 1, 9, 4],
  #[7, 9, 3, 1, 13, 12, 11, 14, 2, 6, 5, 10, 4, 0, 15, 8],
  #[9, 0, 5, 7, 2, 4, 10, 15, 14, 1, 11, 12, 6, 8, 3, 13],
  #[2, 12, 6, 10, 0, 11, 8, 3, 4, 13, 7, 5, 15, 14, 1, 9],
  #[12, 5, 1, 15, 14, 13, 4, 10, 0, 7, 6, 3, 9, 2, 8, 11],
  #[13, 11, 7, 14, 12, 1, 3, 9, 5, 0, 15, 4, 8, 6, 2, 10],
  #[6, 15, 14, 9, 11, 3, 0, 8, 12, 2, 13, 7, 1, 4, 10, 5],
  #[10, 2, 8, 4, 7, 6, 1, 5, 15, 11, 9, 14, 3, 12, 13, 0]]

/-- The columns and diagonals that a round mixes, in order. -/
def lanes : List (Nat × Nat × Nat × Nat) := [
  (0, 4, 8, 12), (1, 5, 9, 13), (2, 6, 10, 14), (3, 7, 11, 15),
  (0, 5, 10, 15), (1, 6, 11, 12), (2, 7, 8, 13), (3, 4, 9, 14)]

/-- Turns a word to the right. -/
def rotate (w : UInt64) (n : UInt64) : UInt64 := (w >>> n) ||| (w <<< (64 - n))

/-- Mixes two words of the block into one lane of the working vector. -/
def mixLane (v : Array UInt64) (lane : Nat × Nat × Nat × Nat) (x y : UInt64) : Array UInt64 :=
  let (ia, ib, ic, id) := lane
  let a := v.getD ia 0
  let b := v.getD ib 0
  let c := v.getD ic 0
  let d := v.getD id 0
  let a := a + b + x
  let d := rotate (d ^^^ a) 32
  let c := c + d
  let b := rotate (b ^^^ c) 24
  let a := a + b + y
  let d := rotate (d ^^^ a) 16
  let c := c + d
  let b := rotate (b ^^^ c) 63
  (((v.setIfInBounds ia a).setIfInBounds ib b).setIfInBounds ic c).setIfInBounds id d

/-- One round over the words of a block. -/
def round (words : Array UInt64) (v : Array UInt64) (i : Nat) : Array UInt64 :=
  let order := schedule.getD (i % 10) #[]
  let word := fun k => words.getD (order.getD k 0) 0
  lanes.zipIdx.foldl (fun v (lane, k) => mixLane v lane (word (2 * k)) (word (2 * k + 1))) v

/-- Mixes a block into the state; `count` is the number of bytes up to its end. -/
def compress (state words : Array UInt64) (count : Nat) (final : Bool) : Array UInt64 :=
  let v := state ++ initial
  let v := v.setIfInBounds 12 (v.getD 12 0 ^^^ count.toUInt64)
  let v := v.setIfInBounds 13 (v.getD 13 0 ^^^ (count >>> 64).toUInt64)
  let v := if final then v.setIfInBounds 14 (v.getD 14 0 ^^^ 0xffffffffffffffff) else v
  let v := (List.range 12).foldl (round words) v
  state.mapIdx fun i w => w ^^^ v.getD i 0 ^^^ v.getD (i + 8) 0

/-- The value of bytes with the low byte first. -/
def littleEndian (bytes : List UInt8) : Nat := bytes.foldr (fun b n => b.toNat + 256 * n) 0

/-- The bytes of a word, the low byte first. -/
def wordBytes (w : UInt64) : List UInt8 :=
  (List.range 8).map fun i => (w >>> (8 * i).toUInt64).toUInt8

/-- The sixteen words of a block; bytes that are missing count as zero. -/
def blockWords (block : List UInt8) : Array UInt64 :=
  ((List.range 16).map fun i => (littleEndian ((block.drop (8 * i)).take 8)).toUInt64).toArray

/-- Mixes what is left of the input into the state, of which `done` bytes are in it already. The last block is marked,
and the empty input is one block of nothing. -/
def absorb : Nat → Array UInt64 → Nat → List UInt8 → Array UInt64
  | 0, state, _, _ => state
  | blocks + 1, state, done, bytes =>
    if bytes.length ≤ 128 then compress state (blockWords bytes) (done + bytes.length) true
    else absorb blocks (compress state (blockWords (bytes.take 128)) (done + 128) false) (done + 128) (bytes.drop 128)

/-- The state before any input: the digest has 32 bytes, and there is no key. -/
def start : Array UInt64 := initial.modify 0 (· ^^^ 0x01010020)

/-- The digest of some bytes. -/
def digest (bytes : List UInt8) : List UInt8 :=
  let state := absorb (bytes.length / 128 + 1) start 0 bytes
  (state.toList.flatMap wordBytes).take 32

/-- The digest of a text in lower-case hexadecimal. -/
def hexDigest (s : String) : String :=
  let digit := fun n => (Nat.toDigits 16 n).headD '0'
  String.ofList <| (digest s.toUTF8.toList).flatMap fun b => [digit (b.toNat / 16), digit (b.toNat % 16)]

end Croupier.Digest
