import MetaTx.Bytes.Hex
import MetaTx.Error
import MetaTx.Hash.Keccak

/-!
# Account addresses

An address is 20 bytes. Its text is `0x` with 40 digits, whose letters are capital where
the hash of the digits has a high nibble (EIP-55), so that mistyped letters show. Readers
differ in how much of that they ask for: `ofText?` takes any case, `normal` takes mixed
case only if it is the checksummed form.
-/

namespace MetaTx.Address

/-- The number of bytes. -/
def width : Nat := 20

/-- The digits of a hash, one number for each half of a byte. -/
def nibbles (bs : Bytes) : List Nat := bs.flatMap fun b => [b.toNat / 16, b.toNat % 16]

/-- A digit as it stands over a nibble of the hash: capital over a high one. -/
def checkedDigit (c : Char) (nibble : Nat) : Char := if 8 ≤ nibble then c.toUpper else c

/-- The checksummed text of an address. -/
def render (bs : Bytes) : String :=
  let digits := Hex.encode bs
  let hash := keccak (digits.map fun c => c.toNat.toUInt8)
  "0x" ++ String.ofList (List.zipWith checkedDigit digits (nibbles hash))

/-- The bytes of 40 digits in any case, with or without a mark in front. -/
def ofText? (s : String) : Option Bytes :=
  let digits := Hex.dropAnyMark s.toList
  if digits.length = 2 * width then Hex.decodeDigits? digits else none

/-- Whether a text has letters of both cases behind its mark. -/
def isMixed (s : String) : Bool :=
  let digits := Hex.dropAnyMark s.toList
  digits.any Char.isUpper && digits.any Char.isLower

/-- The checksummed text of an address given as bytes or text. Mixed case claims to be
the checksummed text, and is refused unless it is. -/
def normal : Value → Except Field.Rule String
  | .bytes bs =>
    if bs.length = width then .ok (render bs) else .error (.addressWidth bs.length)
  | .text s =>
    match ofText? s with
    | none => .error (.address (.text s))
    | some bs =>
      if isMixed s && s != render bs then .error (.addressCase (.text s)) else .ok (render bs)
  | v => .error (.address v)

/-- The bytes of an address given as bytes, as text in any case, or as a number, which is
read through its hexadecimal digits. -/
def ofValue : Value → Except Fault Bytes
  | .bytes bs => if bs.length = width then .ok bs else .error .malformedAddress
  | .text s => (ofText? s).elim (.error .malformedAddress) .ok
  | .int n =>
    if n < 0 then .error .malformedAddress
    else (ofText? (Hex.ofNat n.toNat)).elim (.error .malformedAddress) .ok
  | .bool _ => .error .malformedAddress
  | .null | .float _ | .list _ | .map _ => .error .wrongType

end MetaTx.Address
