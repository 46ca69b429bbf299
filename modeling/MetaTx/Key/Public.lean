import MetaTx.Address
import MetaTx.Bytes.Base58
import MetaTx.Bytes.Bech32
import MetaTx.Hash.Ripemd160
import MetaTx.Key.Network
import MetaTx.Key.Signature

/-!
# Public keys

A public key is a pair of coordinates. Its long form is read without a look at the curve
equation, so all that needs the short form can fail. From the short form comes the short
id, and from that the chain addresses; the account address comes from the coordinates.
-/

namespace MetaTx

/-- The hash of the hash: RIPEMD-160 of SHA-256. -/
def hash160 (bs : Bytes) : Bytes := Ripemd160.hash (Sha256.hash bs)

/-- The coordinates of a point, which need not be on the curve. -/
structure PublicKey where
  x : Nat
  y : Nat
  deriving DecidableEq

namespace PublicKey

open Secp256k1

/-! ## Points -/

/-- The key of a point; the point at infinity is no key and has no coordinates. -/
def ofPoint : Point → PublicKey
  | .infinity => ⟨0, 0⟩
  | .affine x y => ⟨x, y⟩

/-- The point of a key, if there is one. -/
def toPoint (key : PublicKey) : Except Error Point :=
  if isOnCurve key.x key.y then .ok (.affine key.x key.y) else .error (.fault .offCurve)

/-! ## Encodings -/

/-- The number of bytes of the short form. -/
def shortWidth : Nat := 33

/-- The coordinates in 32 bytes each. -/
def coordinates (key : PublicKey) : Bytes := Bytes.ofNat 32 key.x ++ Bytes.ofNat 32 key.y

/-- The long form: a mark and both coordinates. -/
def toLong (key : PublicKey) : Bytes := 0x04 :: key.coordinates

/-- The short form: the parity of the ordinate, and the abscissa. -/
def toShort (key : PublicKey) : Except Error Bytes := do
  let _ ← key.toPoint
  return (if key.y % 2 = 1 then 0x03 else 0x02) :: Bytes.ofNat 32 key.x

/-- Reads the short form. -/
def ofShort (mark : UInt8) (abscissa : Bytes) : Except Error PublicKey :=
  if mark ≠ 0x02 ∧ mark ≠ 0x03 then .error (.keyText .publicKey)
  else match lift? (Bytes.toNat abscissa) (mark == 0x03) with
    | some point => .ok (ofPoint point)
    | none => .error (.fault .offCurve)

/-- Reads either form, told apart by their length. -/
def ofBytes (raw : Bytes) : Except Error PublicKey :=
  if raw.length = shortWidth then
    ofShort (raw.headD 0) raw.tail
  else if raw.length = Sized.publicKey.width then
    if raw.headD 0 = 0x04 then
      .ok ⟨Bytes.toNat (raw.tail.take 32), Bytes.toNat (raw.tail.drop 32)⟩
    else .error (.keyText .longKeyMark)
  else .error (.length .publicKey raw.length)

/-! ## Addresses -/

/-- The hash of the short form, 20 bytes. -/
def shortId (key : PublicKey) : Except Error Bytes := do
  return hash160 (← key.toShort)

/-- The short id in the checked base 58. -/
def shortAddress (key : PublicKey) : Except Error String := do
  return Base58.encodeChecked (← key.shortId)

/-- The short id under the name of a network, on a chain with an alias. -/
def chainAddress (key : PublicKey) (network : Int) (chain : String) : Except Error String := do
  return chain ++ "-" ++ Bech32.encode (Network.hrp network) (← key.shortId)

/-- The last 20 bytes of the hash of the coordinates. -/
def accountBytes (key : PublicKey) : Bytes := (keccak key.coordinates).drop 12

/-- The checksummed text of the account address. -/
def account (key : PublicKey) : String := Address.render key.accountBytes

/-- A key as logs show it. -/
def display (key : PublicKey) : Except Error String := do
  return s!"PublicKey({Hex.bare (← key.toShort)})"

/-! ## Signatures -/

/-- Whether a signature over a digest is by this key. Of the signature only the scalars
count, and `s` may be in either half. -/
def verify (key : PublicKey) (digest : Bytes) (sig : Signature) : Except Error Bool := do
  if !Signature.isNative sig.r sig.s 0 then return false
  let point ← key.toPoint
  if digest.length ≠ Error.digestWidth then throw (.fault .digestWidth)
  return Ecdsa.verify point sig.r.toNat sig.s.toNat digest

end PublicKey

/-- The public key that a signature over a digest is by. -/
def Signature.recover (sig : Signature) (digest : Bytes) : Except Error PublicKey :=
  if Signature.isNative sig.r sig.s sig.recoveryId ∧ digest.length = Error.digestWidth then
    match Ecdsa.recover? sig.r.toNat sig.s.toNat (sig.recoveryId == 1) digest with
    | some point => .ok (.ofPoint point)
    | none => .error (.signing .recovery)
  else .error (.signing .recovery)

end MetaTx
