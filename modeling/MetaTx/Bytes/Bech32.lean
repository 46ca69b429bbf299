import MetaTx.Bytes
import MetaTx.Text.Case

/-!
# Bech32

A human-readable part, the separator `1`, the bytes in groups of five bits, and a
checksum of six such groups over all of it. There is no limit on the length.
-/

namespace MetaTx.Bech32

def charset : List Char := "qpzry9x8gf2tvdw0s3jn54khce6mua7l".toList

def char (d : Nat) : Char := charset.getD d 'q'

def digit? (c : Char) : Option Nat := charset.findIdx? (· == c)

/-! ## Groups of bits -/

/-- The low `width` bits of a number, most significant first. -/
def bits (width n : Nat) : List Bool :=
  (List.range width).reverse.map n.testBit

/-- The number that bits stand for, most significant first. -/
def ofBits (bs : List Bool) : Nat := bs.foldl (fun n b => 2 * n + b.toNat) 0

/-- Cuts bits into groups of `width`; `n` bounds how many there are. -/
def groups (width : Nat) : (n : Nat) → List Bool → List (List Bool)
  | 0, _ => []
  | _, [] => []
  | n + 1, bs => bs.take width :: groups width n (bs.drop width)

/-- The bytes in groups of five bits, zeros filling the last one. -/
def toGroups (bs : Bytes) : List Nat :=
  let all := bs.flatMap fun b => bits 8 b.toNat
  let padded := all ++ List.replicate ((5 - all.length % 5) % 5) false
  (groups 5 padded.length padded).map ofBits

/-- The bytes that groups of five bits hold. What is left over must be less than a group
and zero. -/
def ofGroups? (ds : List Nat) : Option Bytes :=
  let all := ds.flatMap (bits 5)
  let whole := all.length / 8 * 8
  let rest := all.drop whole
  if rest.length < 5 && rest.all (!·) then
    some ((groups 8 whole (all.take whole)).map fun g => (ofBits g).toUInt8)
  else none

/-! ## Checksum -/

def generators : List Nat := [0x3b6a57b2, 0x26508e6d, 0x1ea119fa, 0x3d4233dd, 0x2a1462b3]

/-- One step of the remainder of a polynomial over the field of 32 elements. -/
def polyStep (acc d : Nat) : Nat :=
  let top := acc >>> 25
  let moved := ((acc &&& 0x1ffffff) <<< 5) ^^^ d
  (generators.zipIdx.filter fun (_, i) => top.testBit i).foldl (fun a (g, _) => a ^^^ g) moved

def polymod (ds : List Nat) : Nat := ds.foldl polyStep 1

/-- What the human-readable part adds to the checksum. -/
def expand (hrp : List Char) : List Nat :=
  hrp.map (·.toNat / 32) ++ 0 :: hrp.map (·.toNat % 32)

def checksum (hrp : List Char) (ds : List Nat) : List Nat :=
  let r := polymod (expand hrp ++ ds ++ List.replicate 6 0) ^^^ 1
  [25, 20, 15, 10, 5, 0].map fun shift => (r >>> shift) % 32

/-! ## Texts -/

/-- Writes bytes under a human-readable part, of which nothing is checked. -/
def encode (hrp : String) (bs : Bytes) : String :=
  let ds := toGroups bs
  hrp ++ "1" ++ String.ofList ((ds ++ checksum hrp.toList ds).map char)

/-- Why a text is refused. -/
inductive Refusal
  | malformed
  | checksum
  deriving DecidableEq

/-- Splits a text at its last separator. -/
def split? (cs : List Char) : Option (List Char × List Char) :=
  match cs.reverse.dropWhile (· != '1') with
  | [] => none
  | _ :: front => some (front.reverse, (cs.reverse.takeWhile (· != '1')).reverse)

def isHrpChar (c : Char) : Bool := 33 ≤ c.toNat && c.toNat ≤ 126

/-- Reads the bytes of a text under a human-readable part. The checksum is checked
before the part is compared and the groups are put together, and after all else. -/
def decode (hrp address : String) : Except Refusal Bytes := do
  let cs := address.toList
  if cs.any Char.isLower && cs.any Text.isUpper then throw .malformed
  let some (front, data) := split? (Text.lower cs) | throw .malformed
  if front.isEmpty || !front.all isHrpChar then throw .malformed
  if data.length < 7 then throw .malformed
  let some ds := data.mapM digit? | throw .malformed
  if polymod (expand front ++ ds) ≠ 1 then throw .checksum
  if front ≠ hrp.toList then throw .malformed
  let some bs := ofGroups? (ds.take (ds.length - 6)) | throw .malformed
  return bs

end MetaTx.Bech32
