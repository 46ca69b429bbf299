import MetaTx.Bytes

/-!
# Distinguished encoding

Elements of a tag, a length and a content. Only one encoding of each value is read:
lengths are definite and in as few bytes as they need, and so are integers, of which only
those that are not negative are read.
-/

namespace MetaTx.Der

/-- The tags of elements. -/
inductive Tag
  | integer
  | bitString
  | octetString
  | null
  | objectId
  | sequence
  /-- An element in a place that the context gives a meaning. -/
  | context (place : Nat)
  deriving DecidableEq

def Tag.byte : Tag → UInt8
  | integer => 0x02
  | bitString => 0x03
  | octetString => 0x04
  | null => 0x05
  | objectId => 0x06
  | sequence => 0x30
  | context place => 0xa0 + place.toUInt8

/-- Reads a length, and what follows it. -/
def length? : Bytes → Option (Nat × Bytes)
  | [] => none
  | b :: rest =>
    if b < 0x80 then some (b.toNat, rest)
    else
      let width := b.toNat - 0x80
      let digits := rest.take width
      let n := Bytes.toNat digits
      if width = 0 ∨ digits.length < width ∨ digits.head? = some 0 ∨ n < 0x80 then none
      else some (n, rest.drop width)

/-- Reads an element with a tag: its content, and what follows it. -/
def element? (tag : Tag) : Bytes → Option (Bytes × Bytes)
  | [] => none
  | b :: rest =>
    if b ≠ tag.byte then none
    else match length? rest with
      | none => none
      | some (n, body) =>
        if body.length < n then none else some (body.take n, body.drop n)

/-- Reads an element with a tag behind which nothing follows. -/
def only? (tag : Tag) (bs : Bytes) : Option Bytes :=
  match element? tag bs with
  | some (content, []) => some content
  | _ => none

/-- What follows the number of a tag that is too large to stand in its first byte: digits of
base 128, of which the last alone has its high bit clear, and none of which is needless. -/
def afterTagNumber? (bs : Bytes) : Option Bytes :=
  let digits := bs.takeWhile (0x80 ≤ ·)
  match bs.drop digits.length with
  | [] => none
  | last :: rest =>
    if digits.head? = some 0x80 ∨ (digits.isEmpty ∧ last < 0x1f) ∨ 4 < digits.length then none
    else some rest

/-- What follows an element of any tag. -/
def afterElement? : Bytes → Option Bytes
  | [] => none
  | b :: rest => do
    let (n, body) ← length? (← if b % 0x20 = 0x1f then afterTagNumber? rest else some rest)
    if body.length < n then none else some (body.drop n)

/-- Whether bytes are one element at most. -/
def isAtMostOne (bs : Bytes) : Bool := bs.isEmpty || afterElement? bs == some []

/-- What follows an element that may be missing; the content of one is to pass a test. -/
def afterOptional? (tag : Tag) (isRight : Bytes → Bool) (bs : Bytes) : Option Bytes :=
  if bs.head? = some tag.byte then
    (element? tag bs).bind fun (content, rest) => if isRight content then some rest else none
  else some bs

/-- The number in the content of an integer. -/
def natural? : Bytes → Option Nat
  | [] => none
  | [b] => if b < 0x80 then some b.toNat else none
  | b :: c :: rest =>
    if 0x80 ≤ b ∨ (b = 0 ∧ c < 0x80) then none else some (Bytes.toNat (b :: c :: rest))

/-- Reads an integer, and what follows it. -/
def integer? (bs : Bytes) : Option (Nat × Bytes) := do
  let (content, rest) ← element? .integer bs
  return (← natural? content, rest)

/-- What follows some integers. -/
def afterIntegers? : (count : Nat) → Bytes → Option Bytes
  | 0, bs => some bs
  | count + 1, bs => (integer? bs).bind fun (_, rest) => afterIntegers? count rest

/-- The two integers of a sequence that holds nothing else. -/
def integerPair? (bs : Bytes) : Option (Nat × Nat) := do
  let (r, rest) ← integer? (← only? .sequence bs)
  let (s, rest) ← integer? rest
  if rest.isEmpty then some (r, s) else none

/-- Whether bytes are the content of a bit string. The unused bits at its end are to be
zero. -/
def isBits : Bytes → Bool
  | [] => false
  | unused :: content =>
    let last := (content.getLast?.getD 0).toNat
    unused ≤ 7 && (unused == 0 || !content.isEmpty) && last % Nat.pow 2 unused.toNat == 0

/-- The bytes of a bit string without unused bits. -/
def octets? : Bytes → Option Bytes
  | 0 :: content => some content
  | _ => none

end MetaTx.Der
