import MetaTx.Curve.Named
import MetaTx.Der.ObjectId

/-!
# Curves that are spelled out

Instead of naming its curve, a key can spell out the domain: the field, both coefficients,
perhaps the seed from which they were drawn, a base point, its order and the cofactor. Such a
domain is taken for a known curve only if it agrees with the published one in all of these,
of which the seed alone may be left out.
-/

namespace MetaTx.Der

/-- A domain as it is spelled out. -/
structure Domain where
  version : Nat
  /-- The size of the field, if it is a prime field. -/
  prime? : Option Nat
  a : Bytes
  b : Bytes
  /-- The seed as the content of a bit string. -/
  seed? : Option Bytes
  base : Bytes
  order : Nat
  cofactor? : Option Nat
  deriving DecidableEq

namespace Domain

def primeFieldId : ObjectId := [1, 2, 840, 10045, 1, 1]

/-- The size in the description of a field, if it is a prime field. -/
def fieldSize? (content : Bytes) : Option (Option Nat) := do
  let (id, parameters) ← element? .objectId content
  if (← ObjectId.ofContent? id) = primeFieldId then
    let (p, rest) ← integer? parameters
    if rest.isEmpty then some (some p) else none
  else if isAtMostOne parameters then some none
  else none

/-- The last element of a sequence, which may be missing. -/
def last? {α : Type} (read? : Bytes → Option (α × Bytes)) (bs : Bytes) : Option (Option α) :=
  if bs.isEmpty then some none
  else match read? bs with
    | some (value, []) => some (some value)
    | _ => none

/-- Reads the content of a domain. -/
def ofContent? (content : Bytes) : Option Domain := do
  let (version, rest) ← integer? content
  let (field, rest) ← element? .sequence rest
  let (coefficients, rest) ← element? .sequence rest
  let (a, afterA) ← element? .octetString coefficients
  let (b, afterB) ← element? .octetString afterA
  let seed? ← last? (element? .bitString) afterB
  let (base, rest) ← element? .octetString rest
  let (order, rest) ← integer? rest
  let cofactor? ← last? integer? rest
  if Bytes.limit 1 ≤ version ∨ seed?.any (!isBits ·) then none
  else return ⟨version, ← fieldSize? field, a, b, seed?, base, order, cofactor?⟩

/-- A published domain, by its curve, the seed, the base point and its order. -/
def published (curve : NamedCurve) (seed : Bytes) (x y order : Nat) : Domain where
  version := 1
  prime? := some curve.p
  a := Bytes.ofNat curve.width curve.a
  b := Bytes.ofNat curve.width curve.b
  seed? := some (0x00 :: seed)
  base := 0x04 :: (Bytes.ofNat curve.width x ++ Bytes.ofNat curve.width y)
  order := order
  cofactor? := some 1

def p256 : Domain := published .p256
  (Bytes.ofNat 20 0xc49d360886e704936a6678e1139d26b7819f7e90)
  0x6b17d1f2e12c4247f8bce6e563a440f277037d812deb33a0f4a13945d898c296
  0x4fe342e2fe1a7f9b8ee7eb4a7c0f9e162bce33576b315ececbb6406837bf51f5
  0xffffffff00000000ffffffffffffffffbce6faada7179e84f3b9cac2fc632551

def p384 : Domain := published .p384
  (Bytes.ofNat 20 0xa335926aa319a27a1d00896a6773a4827acdac73)
  0xaa87ca22be8b05378eb1c71ef320ad746e1d3b628ba79b9859f741e082542a385502f25dbf55296c3a545e3872760ab7
  0x3617de4a96262c6f5d9e98bf9292dc29f8f41dbd289a147ce9da3113b5f0b8c00a60b1ce1d7e819d7a431d7c90ea0e5f
  0xffffffffffffffffffffffffffffffffffffffffffffffffc7634d81f4372ddf581a0db248b0a77aecec196accc52973

def p521 : Domain := published .p521
  (Bytes.ofNat 20 0xd09e8800291cb85396cc6717393284aaa0da64ba)
  0x00c6858e06b70404e9cd9e3ecb662395b4429c648139053fb521f828af606b4d3dbaa14b5e77efe75928fe1dc127a2ffa8de3348b3c1856a429bf97e7e31c2e5bd66
  0x011839296a789a3bc0045c8a5fb42c7d1bd998f54449579b446817afbd17273e662c97ee72995ef42640c550b9013fad0761353c7086a272c24088be94769fd16650
  0x01fffffffffffffffffffffffffffffffffffffffffffffffffffffffffffffffffa51868783bf2f966b7fcc0148f709a5d03bb5c9b8899c47aebb6fb71e91386409

/-- The known curve that a domain spells out. -/
def curve? (domain : Domain) : Option NamedCurve :=
  ([(p256, .p256), (p384, .p384), (p521, .p521)] : List (Domain × NamedCurve)).findSome?
    fun (known, curve) =>
      if domain = known ∨ domain = { known with seed? := none } then some curve else none

end Domain

end MetaTx.Der
