import MetaTx.Bytes

/-!
# Keccak-256

The hash of Ethereum: the Keccak sponge with a rate of 136 bytes and the padding
that came before the SHA-3 standard. The state has 25 lanes of 64 bits, the lane
of column `x` and row `y` at `x + 5 * y`.
-/

namespace MetaTx

namespace Keccak

abbrev Lanes := Vector UInt64 25

def roundConstants : List UInt64 := [
  0x0000000000000001, 0x0000000000008082, 0x800000000000808a, 0x8000000080008000,
  0x000000000000808b, 0x0000000080000001, 0x8000000080008081, 0x8000000000008009,
  0x000000000000008a, 0x0000000000000088, 0x0000000080008009, 0x000000008000000a,
  0x000000008000808b, 0x800000000000008b, 0x8000000000008089, 0x8000000000008003,
  0x8000000000008002, 0x8000000000000080, 0x000000000000800a, 0x800000008000000a,
  0x8000000080008081, 0x8000000000008080, 0x0000000080000001, 0x8000000080008008]

/-- How far each lane is rotated. -/
def rotations : Vector UInt64 25 := #v[
  0, 1, 62, 28, 27, 36, 44, 6, 55, 20, 3, 10, 43, 25, 39, 41, 45, 15, 21, 8, 18, 2, 61, 56, 14]

@[inline] def rotl (x n : UInt64) : UInt64 := (x <<< n) ||| (x >>> (64 - n))

/-- Adds to each lane the parities of two neighbouring columns. -/
def theta (a : Lanes) : Lanes :=
  let parity : Vector UInt64 5 := Vector.ofFn fun x =>
    a[x.val] ^^^ a[x.val + 5] ^^^ a[x.val + 10] ^^^ a[x.val + 15] ^^^ a[x.val + 20]
  let mixed : Vector UInt64 5 := Vector.ofFn fun x =>
    have : (x.val + 4) % 5 < 5 := Nat.mod_lt _ (by decide)
    have : (x.val + 1) % 5 < 5 := Nat.mod_lt _ (by decide)
    parity[(x.val + 4) % 5] ^^^ rotl parity[(x.val + 1) % 5] 1
  Vector.ofFn fun i =>
    have : i.val % 5 < 5 := Nat.mod_lt _ (by decide)
    a[i] ^^^ mixed[i.val % 5]

/-- Rotates the lanes and moves each to its new place. -/
def rhoPi (a : Lanes) : Lanes :=
  Vector.ofFn fun i =>
    let x := i.val % 5
    let y := i.val / 5
    have : (x + 3 * y) % 5 + 5 * x < 25 := by omega
    let j := (x + 3 * y) % 5 + 5 * x
    rotl a[j] rotations[j]

/-- Mixes each lane with the next two of its row. -/
def chi (a : Lanes) : Lanes :=
  Vector.ofFn fun i =>
    let x := i.val % 5
    let y := i.val / 5
    have : (x + 1) % 5 + 5 * y < 25 := by omega
    have : (x + 2) % 5 + 5 * y < 25 := by omega
    a[i] ^^^ (~~~a[(x + 1) % 5 + 5 * y] &&& a[(x + 2) % 5 + 5 * y])

def round (a : Lanes) (constant : UInt64) : Lanes :=
  let b := chi (rhoPi (theta a))
  b.set 0 (b[0] ^^^ constant)

def permute (a : Lanes) : Lanes := roundConstants.foldl round a

/-- How many bytes a block has. -/
def rate : Nat := 136

/-- The words of a block, least significant byte first. -/
def words : Bytes → List UInt64
  | b0 :: b1 :: b2 :: b3 :: b4 :: b5 :: b6 :: b7 :: rest =>
    (b0.toUInt64 ||| b1.toUInt64 <<< 8 ||| b2.toUInt64 <<< 16 ||| b3.toUInt64 <<< 24 |||
      b4.toUInt64 <<< 32 ||| b5.toUInt64 <<< 40 ||| b6.toUInt64 <<< 48 ||| b7.toUInt64 <<< 56)
      :: words rest
  | _ => []

/-- Adds a block to the first lanes and permutes. -/
def absorbBlock (a : Lanes) (block : Bytes) : Lanes :=
  let w := (words block).toArray
  permute (Vector.ofFn fun i => a[i] ^^^ w.getD i.val 0)

/-- Absorbs `n` blocks. -/
def absorb : (n : Nat) → Lanes → Bytes → Lanes
  | 0, a, _ => a
  | n + 1, a, bs => absorb n (absorbBlock a (bs.take rate)) (bs.drop rate)

/-- What follows a message of `length` bytes up to the end of its last block. -/
def padding (length : Nat) : Bytes :=
  let gap := rate - length % rate
  if gap = 1 then [0x81] else 0x01 :: List.replicate (gap - 2) 0 ++ [0x80]

def laneBytes (w : UInt64) : Bytes :=
  [w.toUInt8, (w >>> 8).toUInt8, (w >>> 16).toUInt8, (w >>> 24).toUInt8,
    (w >>> 32).toUInt8, (w >>> 40).toUInt8, (w >>> 48).toUInt8, (w >>> 56).toUInt8]

def digest (a : Lanes) : Bytes :=
  laneBytes a[0] ++ laneBytes a[1] ++ laneBytes a[2] ++ laneBytes a[3]

@[simp] theorem length_digest (a : Lanes) : (digest a).length = 32 := by
  simp [digest, laneBytes]

/-- Pads a message and absorbs it from the zero state. -/
def hash (message : Bytes) : Bytes :=
  let padded := message ++ padding message.length
  digest (absorb (padded.length / rate) (Vector.replicate 25 0) padded)

end Keccak

/-- The 32-byte Keccak hash of a message. -/
def keccak (message : Bytes) : Bytes := Keccak.hash message

/-- The Keccak hash of the UTF-8 bytes of a text. -/
def keccakText (s : String) : Bytes := keccak (Bytes.ofText s)

@[simp] theorem length_keccak (message : Bytes) : (keccak message).length = 32 := by
  simp [keccak, Keccak.hash]

end MetaTx
