import MetaTx.Der.Algorithm
import MetaTx.Key.Public

/-!
# Public keys with their algorithm

The encoding in which key services hand out public keys: an algorithm with its parameters,
and the key as a bit string. Keys of other algorithms and curves are read to tell them from
malformed ones, and from those that nobody here can read. An RSA key may also come without
its algorithm.
-/

namespace MetaTx.Der

/-- A public key as a key service hands it out. -/
inductive SubjectKey
  | secp256k1 (key : PublicKey)
  /-- A key of another curve or algorithm. -/
  | other
  /-- A key of an algorithm or curve that is not known. -/
  | unknown

/-! ## Keys -/

/-- The coordinates of an encoded point of secp256k1. -/
def curvePoint? : Bytes → Option PublicKey
  | [] => none
  | mark :: body =>
    let x := Bytes.toNat (body.take 32)
    let y := Bytes.toNat (body.drop 32)
    if mark = 0x02 ∨ mark = 0x03 then
      if body.length = 32 then (Secp256k1.lift? x (mark == 0x03)).map .ofPoint else none
    else if body.length = 64 && Secp256k1.isOnCurve x y &&
        (mark == 0x04 || mark == 0x06 && y % 2 == 0 || mark == 0x07 && y % 2 == 1) then
      some ⟨x, y⟩
    else none

/-- Whether bytes encode an RSA key: a modulus, and an odd exponent of three at least and below
the modulus. -/
def isRsaKey (bs : Bytes) : Bool :=
  (integerPair? bs).any fun (n, e) => 3 ≤ n && 3 ≤ e && e < n && e % 2 == 1

/-- A key of an algorithm. -/
def Algorithm.key? (algorithm : Algorithm) (bs : Bytes) : Option SubjectKey :=
  let wanted (test : Bool) : Option SubjectKey := if test then some .other else none
  match algorithm with
  | secp256k1 => (curvePoint? bs).map .secp256k1
  | otherCurve curve => wanted (curve.isPoint bs)
  | rsa => wanted (isRsaKey bs)
  | fixed width => wanted (bs.length == width)
  | single => wanted (afterIntegers? 1 bs == some [])
  | unknown => some .unknown

/-- Reads a key with its algorithm. -/
def keyInfo? (bs : Bytes) : Option SubjectKey := do
  let (identifier, rest) ← element? .sequence (← only? .sequence bs)
  let algorithm ← Algorithm.ofContent? identifier
  let key ← octets? (← only? .bitString rest)
  algorithm.key? key

/-- Reads the public key that a key service hands out. -/
def publicKey (bs : Bytes) : Except Error PublicKey :=
  match keyInfo? bs with
  | some (.secp256k1 key) => .ok key
  | some .other => .error (.signing .otherCurve)
  | some .unknown => .error (.fault .unknownKey)
  | none =>
    if isRsaKey bs then .error (.signing .otherCurve) else .error (.signing .publicKeyDer)

/-- Reads the scalars of a signature that a key service gives. -/
def signature (bs : Bytes) : Except Error (Nat × Nat) :=
  match integerPair? bs with
  | some pair => .ok pair
  | none => .error (.signing .signatureDer)

end MetaTx.Der
