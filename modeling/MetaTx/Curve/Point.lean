import MetaTx.Curve.Modular

/-!
# The curve secp256k1

The points of `y² = x³ + 7` over the prime field of `p` elements. They form a group
of prime order `n` with the generator `g`. Sums are given by the chord and tangent
rule on affine points; multiples are computed in Jacobian coordinates, where
`(x, y, z)` stands for `(x / z², y / z³)` and no step divides.
-/

namespace MetaTx.Secp256k1

/-- The size of the field. -/
def p : Nat := 0xFFFFFFFFFFFFFFFFFFFFFFFFFFFFFFFFFFFFFFFFFFFFFFFFFFFFFFFEFFFFFC2F

/-- The order of the group. -/
def n : Nat := 0xFFFFFFFFFFFFFFFFFFFFFFFFFFFFFFFEBAAEDCE6AF48A03BBFD25E8CD0364141

/-- The largest scalar that counts as low. -/
def halfN : Nat := n / 2

theorem n_eq_halfN : n = 2 * halfN + 1 := by decide

/-- A point of the curve. -/
inductive Point
  | infinity
  | affine (x y : Nat)
  deriving DecidableEq

/-- Whether two numbers are the coordinates of a point. -/
def isOnCurve (x y : Nat) : Bool :=
  x < p && y < p && y * y % p == (x * x * x + 7) % p

def g : Point := .affine
  0x79BE667EF9DCBBAC55A06295CE870B07029BFCDB2DCE28D959F2815B16F81798
  0x483ADA7726A3C4655DA4FBFC0E1108A8FD17B448A68554199C47D08FFB10D4B8

/-- The point with a given abscissa whose ordinate is odd, or even. -/
def lift? (x : Nat) (odd : Bool) : Option Point :=
  let y := Modular.pow p (x * x * x + 7) ((p + 1) / 4)
  let y := if (y % 2 == 1) == odd then y else Modular.sub p 0 y
  if isOnCurve x y && (y % 2 == 1) == odd then some (.affine x y) else none

namespace Point

def neg : Point → Point
  | infinity => infinity
  | affine x y => affine x (Modular.sub p 0 y)

/-- The third point on the line with slope `m` through two points, reflected. -/
def chord (m x₁ y₁ x₂ : Nat) : Point :=
  let x := Modular.sub p (m * m % p) ((x₁ + x₂) % p)
  affine x (Modular.sub p (m * Modular.sub p x₁ x % p) y₁)

/-- The sum of two points by the chord and tangent rule. -/
def add : Point → Point → Point
  | infinity, q => q
  | q, infinity => q
  | affine x₁ y₁, affine x₂ y₂ =>
    if x₁ = x₂ then
      if (y₁ + y₂) % p = 0 then infinity
      else chord (3 * x₁ * x₁ * Modular.inverse p (2 * y₁ % p) % p) x₁ y₁ x₂
    else
      chord (Modular.sub p y₂ y₁ * Modular.inverse p (Modular.sub p x₂ x₁) % p) x₁ y₁ x₂

end Point

/-- Jacobian coordinates; a zero `z` stands for the point at infinity. -/
structure Jacobian where
  x : Nat
  y : Nat
  z : Nat

namespace Jacobian

def infinity : Jacobian := ⟨1, 1, 0⟩

def ofPoint : Point → Jacobian
  | .infinity => infinity
  | .affine x y => ⟨x, y, 1⟩

def toPoint (a : Jacobian) : Point :=
  if a.z = 0 then .infinity
  else
    let i := Modular.inverse p a.z
    let i2 := i * i % p
    .affine (a.x * i2 % p) (a.y * (i2 * i % p) % p)

def double (a : Jacobian) : Jacobian :=
  let yy := a.y * a.y % p
  let s := 4 * a.x * yy % p
  let m := 3 * a.x * a.x % p
  let x := Modular.sub p (m * m % p) (2 * s % p)
  ⟨x, Modular.sub p (m * Modular.sub p s x % p) (8 * yy * yy % p), 2 * a.y * a.z % p⟩

def add (a b : Jacobian) : Jacobian :=
  if a.z = 0 then b
  else if b.z = 0 then a
  else
    let za := a.z * a.z % p
    let zb := b.z * b.z % p
    let u₁ := a.x * zb % p
    let u₂ := b.x * za % p
    let s₁ := a.y * (zb * b.z % p) % p
    let s₂ := b.y * (za * a.z % p) % p
    if u₁ = u₂ then
      if s₁ = s₂ then double a else infinity
    else
      let h := Modular.sub p u₂ u₁
      let r := Modular.sub p s₂ s₁
      let hh := h * h % p
      let hhh := h * hh % p
      let v := u₁ * hh % p
      let x := Modular.sub p (Modular.sub p (r * r % p) hhh) (2 * v % p)
      ⟨x, Modular.sub p (r * Modular.sub p v x % p) (s₁ * hhh % p), a.z * b.z % p * h % p⟩

/-- Doubles `a` and halves `k` until `n` binary digits of `k` are used up. -/
def mulLoop : (n : Nat) → (a : Jacobian) → (k : Nat) → (acc : Jacobian) → Jacobian
  | 0, _, _, acc => acc
  | n + 1, a, k, acc =>
    mulLoop n (double a) (k / 2) (if k % 2 = 1 then add acc a else acc)

/-- The multiple `k · a`. -/
def mul (k : Nat) (a : Jacobian) : Jacobian := mulLoop (k.log2 + 1) a k infinity

end Jacobian

namespace Point

/-- The multiple `k · a`. -/
def mul (k : Nat) (a : Point) : Point := (Jacobian.mul k (.ofPoint a)).toPoint

/-- The sum `k · a + l · b`. -/
def combine (k : Nat) (a : Point) (l : Nat) (b : Point) : Point :=
  (Jacobian.add (Jacobian.mul k (.ofPoint a)) (Jacobian.mul l (.ofPoint b))).toPoint

end Point

end MetaTx.Secp256k1
