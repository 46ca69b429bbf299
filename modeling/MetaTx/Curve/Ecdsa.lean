import MetaTx.Curve.Nonce
import MetaTx.Curve.Point

/-!
# ECDSA over secp256k1

Signing, recovery and verification on numbers. A signature is a pair of scalars with
the recovery id that says which of the points over its abscissa was the nonce point:
bit 0 is the parity of the ordinate, bit 1 tells that the abscissa exceeds the order.
-/

namespace MetaTx.Ecdsa

open Secp256k1

/-- The two scalars of a signature, with the recovery id. -/
structure Pair where
  r : Nat
  s : Nat
  id : Nat

/-- Signs a number with a secret and a nonce; none if one of the scalars would be zero.
A high `s` is replaced by its negative, which flips the parity. -/
def signWith? (secret z k : Nat) : Option Pair :=
  match Point.mul k g with
  | .infinity => none
  | .affine x y =>
    let r := x % n
    let s := Modular.inverse n k * ((z + r * secret) % n) % n
    let id := (if n ≤ x then 2 else 0) + y % 2
    if r = 0 ∨ s = 0 then none
    else if halfN < s then some ⟨r, n - s, id ^^^ 1⟩
    else some ⟨r, s, id⟩

/-- How many nonces are tried; a single one fails with a chance of about `2 ^ -128`. -/
def maxNonces : Nat := 64

/-- Signs a number with a drawn nonce, which may be out of range. -/
def signDrawn? (secret z k : Nat) : Option Pair :=
  if 0 < k ∧ k < n then signWith? secret z k else none

/-- The deterministic low-`s` signature of a 32-byte digest, with the first nonce that serves. -/
def sign? (secret : Nat) (digest : Bytes) : Option Pair :=
  let z := Bytes.toNat digest % n
  let source := NonceSource.ofSeed (Bytes.ofNat 32 secret ++ Bytes.ofNat 32 z)
  source.first? (signDrawn? secret z) maxNonces

/-- The public point whose secret signed a digest: `r⁻¹ (s R - z g)` for the nonce point
`R` over `r` with the given parity. -/
def recover? (r s : Nat) (odd : Bool) (digest : Bytes) : Option Point :=
  if r = 0 ∨ s = 0 then none
  else
    match lift? r odd with
    | none => none
    | some nonce =>
      let i := Modular.inverse n r
      let z := Bytes.toNat digest % n
      match Point.combine (i * s % n) nonce (i * (n - z) % n) g with
      | .infinity => none
      | q => some q

/-- Whether `s⁻¹ (z g + r q)` has the abscissa `r` modulo the order. -/
def verify (q : Point) (r s : Nat) (digest : Bytes) : Bool :=
  if r = 0 ∨ s = 0 then false
  else
    let i := Modular.inverse n s
    match Point.combine (i * (Bytes.toNat digest % n) % n) g (i * r % n) q with
    | .infinity => false
    | .affine x _ => x % n == r

end MetaTx.Ecdsa
