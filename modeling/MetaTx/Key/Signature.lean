import MetaTx.Curve.Ecdsa
import MetaTx.Error

/-!
# Recoverable signatures

A signature is a pair of scalars and a number `v` from which the public key is
recovered. Three conventions share `v`:

* raw: the recovery id itself,
* message: 27 and the recovery id,
* folded: 35, twice a chain id, and the recovery id (EIP-155).

The scalar `s` is kept in the lower half of the group order by those who sign. Scalars
and `v` are integers of any size until they are laid out in bytes.
-/

namespace MetaTx

/-- The two scalars and `v`, none of them checked. -/
structure Signature where
  r : Int
  s : Int
  v : Int
  deriving DecidableEq

namespace Signature

/-- The least `v` of the message convention. -/
def messageBase : Int := 27

/-- The least `v` of the folded convention. -/
def foldedBase : Int := 35

/-! ## Layout -/

/-- The number of bytes: 32 for each scalar and one for `v`. -/
def width : Nat := Sized.signature.width

/-- Reads the layout `r`, `s`, `v`. -/
def ofBytes (raw : Bytes) : Except Error Signature :=
  if raw.length = width then
    .ok ⟨Bytes.toNat (raw.take 32), Bytes.toNat ((raw.drop 32).take 32),
      Bytes.toNat (raw.drop 64)⟩
  else .error (.length .signature raw.length)

/-- A scalar in 32 bytes. -/
def scalarBytes (n : Int) : Except Error Bytes :=
  if 0 ≤ n ∧ n < Bytes.limit 32 then .ok (Bytes.ofNat 32 n.toNat) else .error (.fault .wideScalar)

/-- The layout `r`, `s`, `v`. That `v` is too large is told before all else. -/
def toBytes (sig : Signature) : Except Error Bytes := do
  if 255 < sig.v then throw ((Error.signing (.wideV sig.v)).telling (.int sig.v))
  let r ← scalarBytes sig.r
  let s ← scalarBytes sig.s
  if sig.v < 0 then throw (.fault .negativeV)
  return r ++ s ++ [sig.v.toNat.toUInt8]

/-! ## The number `v` -/

/-- Whether `v` carries a chain id. -/
def isFolded (sig : Signature) : Bool := foldedBase ≤ sig.v

/-- The recovery id, whichever convention `v` follows. -/
def recoveryId (sig : Signature) : Int :=
  if sig.isFolded then Int.emod (sig.v - foldedBase) 2
  else if messageBase ≤ sig.v then sig.v - messageBase
  else sig.v

/-- The chain id that `v` carries. -/
def chainId? (sig : Signature) : Option Int :=
  if sig.isFolded then some (Int.fdiv (sig.v - foldedBase) 2) else none

/-- From the raw to the message convention; other signatures stay as they are. -/
def toMessage (sig : Signature) : Signature :=
  if messageBase ≤ sig.v then sig else { sig with v := sig.v + messageBase }

/-- Folds a chain id into `v`, once. -/
def fold (sig : Signature) (chainId : Int) : Except Error Signature :=
  match sig.chainId? with
  | some carried => .error ((Error.signing (.folded carried)).telling (.int carried))
  | none => .ok { sig with v := sig.recoveryId + chainId * 2 + foldedBase }

/-! ## The lower half -/

def isLow (sig : Signature) : Bool := sig.s ≤ Secp256k1.halfN

/-- Flips the lowest binary digit of an integer. -/
def flipParity (n : Int) : Int := if n % 2 = 0 then n + 1 else n - 1

/-- Moves `s` into the lower half of the order, flipping the parity of the recovery id. -/
def canonicalize (r s id : Int) : Int × Int × Int :=
  if (Secp256k1.halfN : Int) < s then (r, Secp256k1.n - s, flipParity id) else (r, s, id)

/-! ## The curve -/

/-- Whether the curve knows a signature: scalars below the order, and a recovery id that
is a parity. -/
def isNative (r s id : Int) : Bool :=
  0 ≤ r && r < Secp256k1.n && 0 ≤ s && s < Secp256k1.n && (id == 0 || id == 1)

/-- A signature of the curve in the raw convention and the lower half. -/
def ofNative (r s id : Int) : Except Error Signature :=
  if isNative r s id then
    let (r, s, id) := canonicalize r s id
    .ok ⟨r, s, id⟩
  else .error (.fault .noSignature)

end Signature

end MetaTx
