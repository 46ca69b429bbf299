import Mathlib.AlgebraicGeometry.EllipticCurve.Affine.Point
import Mathlib.Tactic.FieldSimp
import Mathlib.Tactic.LinearCombination

/-!
# Sums in Jacobian coordinates

Over any field, three coordinates represent a point of `y² = x³ + 7`: the point at infinity if the
last is zero, and else the affine point with coordinates `x / z²` and `y / z³`. The formulas that
double and add without a division represent the double and the sum in the group of the curve.
-/

namespace MetaTx.Secp256k1

/-- The curve `y² = x³ + 7` over a field. -/
def curve (F : Type) [Field F] : WeierstrassCurve.Affine F := ⟨0, 0, 0, 0, 7⟩

section

variable {F : Type} [Field F]

theorem equation_iff {x y : F} : (curve F).Equation x y ↔ y ^ 2 = x ^ 3 + 7 := by
  rw [WeierstrassCurve.Affine.equation_iff]
  simp [curve]

@[simp] theorem negY_eq (x y : F) : (curve F).negY x y = -y := by
  simp [WeierstrassCurve.Affine.negY, curve]

theorem addX_eq (x₁ x₂ m : F) : (curve F).addX x₁ x₂ m = m ^ 2 - x₁ - x₂ := by
  simp [WeierstrassCurve.Affine.addX, curve]

theorem addY_eq (x₁ x₂ y₁ m : F) :
    (curve F).addY x₁ x₂ y₁ m = m * (x₁ - (m ^ 2 - x₁ - x₂)) - y₁ := by
  rw [WeierstrassCurve.Affine.addY, WeierstrassCurve.Affine.negAddY, negY_eq, addX_eq]
  ring

/-- Which point three coordinates stand for. -/
inductive Represents (x y z : F) : (curve F).Point → Prop
  | infinity (hz : z = 0) : Represents x y z 0
  | affine (hz : z ≠ 0) (h : (curve F).Nonsingular (x / z ^ 2) (y / z ^ 3)) :
    Represents x y z (.some _ _ h)

variable {x y z x₁ y₁ z₁ x₂ y₂ z₂ : F}

theorem represents_some {a b : F} (h : (curve F).Nonsingular a b) (hz : z ≠ 0)
    (hx : a = x / z ^ 2) (hy : b = y / z ^ 3) : Represents x y z (.some a b h) := by
  subst hx hy
  exact .affine hz h

variable [DecidableEq F] {P Q : (curve F).Point}

theorem Represents.double (htwo : (2 : F) ≠ 0) (h : Represents x y z P) :
    Represents ((3 * x ^ 2) ^ 2 - 2 * (4 * x * y ^ 2))
      (3 * x ^ 2 * (4 * x * y ^ 2 - ((3 * x ^ 2) ^ 2 - 2 * (4 * x * y ^ 2))) - 8 * y ^ 4)
      (2 * y * z) (P + P) := by
  cases h with
  | infinity hz =>
    rw [add_zero]
    exact .infinity (by rw [hz, mul_zero])
  | affine hz h =>
    by_cases hy : y = 0
    · -- The tangent is vertical.
      have hself : y / z ^ 3 = (curve F).negY (x / z ^ 2) (y / z ^ 3) := by
        rw [negY_eq, hy, zero_div, neg_zero]
      rw [WeierstrassCurve.Affine.Point.add_self_of_Y_eq hself]
      exact .infinity (by rw [hy, mul_zero, zero_mul])
    · have hyz : y / z ^ 3 ≠ 0 := div_ne_zero hy (pow_ne_zero 3 hz)
      have hne : y / z ^ 3 ≠ (curve F).negY (x / z ^ 2) (y / z ^ 3) := by
        rw [negY_eq]
        intro heq
        have hdouble : 2 * (y / z ^ 3) = 0 := by linear_combination heq
        exact (mul_ne_zero htwo hyz) hdouble
      have hslope : (curve F).slope (x / z ^ 2) (x / z ^ 2) (y / z ^ 3) (y / z ^ 3) =
          3 * x ^ 2 / (2 * y * z) := by
        have hrise : y / z ^ 3 - -(y / z ^ 3) = 2 * (y / z ^ 3) := by ring
        rw [WeierstrassCurve.Affine.slope_of_Y_ne rfl hne, negY_eq, hrise]
        simp only [curve]
        field_simp
        ring
      rw [WeierstrassCurve.Affine.Point.add_self_of_Y_ne hne]
      refine represents_some _ (mul_ne_zero (mul_ne_zero htwo hy) hz) ?_ ?_
      · rw [addX_eq, hslope]
        field_simp
        ring
      · rw [addY_eq, hslope]
        field_simp
        ring

/-- The sum of points with different abscissas. -/
theorem Represents.add_of_ne (h₁ : Represents x₁ y₁ z₁ P) (h₂ : Represents x₂ y₂ z₂ Q)
    (hz₁ : z₁ ≠ 0) (hz₂ : z₂ ≠ 0) {u h s r : F} (hu : u = x₁ * z₂ ^ 2)
    (hh : h = x₂ * z₁ ^ 2 - u) (hs : s = y₁ * z₂ ^ 3) (hr : r = y₂ * z₁ ^ 3 - s) (hne : h ≠ 0) :
    Represents (r ^ 2 - h ^ 3 - 2 * (u * h ^ 2))
      (r * (u * h ^ 2 - (r ^ 2 - h ^ 3 - 2 * (u * h ^ 2))) - s * h ^ 3) (z₁ * z₂ * h) (P + Q) := by
  cases h₁ with
  | infinity hz => exact absurd hz hz₁
  | affine _ h₁ =>
    cases h₂ with
    | infinity hz => exact absurd hz hz₂
    | affine _ h₂ =>
      have hx : x₁ / z₁ ^ 2 ≠ x₂ / z₂ ^ 2 := by
        rw [ne_eq, div_eq_div_iff (pow_ne_zero 2 hz₁) (pow_ne_zero 2 hz₂)]
        intro heq
        exact hne (by rw [hh, hu, heq, sub_self])
      have hslope : (curve F).slope (x₁ / z₁ ^ 2) (x₂ / z₂ ^ 2) (y₁ / z₁ ^ 3) (y₂ / z₂ ^ 3) =
          r / (z₁ * z₂ * h) := by
        have hdiff : x₁ / z₁ ^ 2 - x₂ / z₂ ^ 2 = -h / (z₁ * z₂) ^ 2 := by
          rw [hh, hu]
          field_simp
          ring
        have hrise : y₁ / z₁ ^ 3 - y₂ / z₂ ^ 3 = -r / (z₁ * z₂) ^ 3 := by
          rw [hr, hs]
          field_simp
          ring
        rw [WeierstrassCurve.Affine.slope_of_X_ne hx, hdiff, hrise]
        field_simp
      have hx₁ : x₁ / z₁ ^ 2 = u / (z₁ * z₂) ^ 2 := by
        rw [hu]
        field_simp
      have hx₂ : x₂ / z₂ ^ 2 = (u + h) / (z₁ * z₂) ^ 2 := by
        rw [hh]
        field_simp
        ring
      have hy₁ : y₁ / z₁ ^ 3 = s / (z₁ * z₂) ^ 3 := by
        rw [hs]
        field_simp
      rw [WeierstrassCurve.Affine.Point.add_of_X_ne hx]
      refine represents_some _ (mul_ne_zero (mul_ne_zero hz₁ hz₂) hne) ?_ ?_
      · rw [addX_eq, hslope, hx₁, hx₂]
        field_simp
        ring
      · rw [addY_eq, hslope, hx₁, hx₂, hy₁]
        field_simp
        ring

/-- Points with the same abscissa are equal or cancel each other. -/
theorem Represents.of_eq_x (h₁ : Represents x₁ y₁ z₁ P) (h₂ : Represents x₂ y₂ z₂ Q)
    (hz₁ : z₁ ≠ 0) (hz₂ : z₂ ≠ 0) (hx : x₁ * z₂ ^ 2 = x₂ * z₁ ^ 2) :
    (y₁ * z₂ ^ 3 = y₂ * z₁ ^ 3 → P = Q) ∧ (y₁ * z₂ ^ 3 ≠ y₂ * z₁ ^ 3 → P + Q = 0) := by
  cases h₁ with
  | infinity hz => exact absurd hz hz₁
  | affine _ h₁ =>
    cases h₂ with
    | infinity hz => exact absurd hz hz₂
    | affine _ h₂ =>
      have hxeq : x₁ / z₁ ^ 2 = x₂ / z₂ ^ 2 :=
        (div_eq_div_iff (pow_ne_zero 2 hz₁) (pow_ne_zero 2 hz₂)).mpr hx
      have hyiff : y₁ / z₁ ^ 3 = y₂ / z₂ ^ 3 ↔ y₁ * z₂ ^ 3 = y₂ * z₁ ^ 3 :=
        div_eq_div_iff (pow_ne_zero 3 hz₁) (pow_ne_zero 3 hz₂)
      constructor
      · intro hy
        simp only [WeierstrassCurve.Affine.Point.some.injEq]
        exact ⟨hxeq, hyiff.mpr hy⟩
      · intro hy
        have hneg := (WeierstrassCurve.Affine.Y_eq_of_X_eq h₁.1 h₂.1 hxeq).resolve_left
          fun heq => hy (hyiff.mp heq)
        exact WeierstrassCurve.Affine.Point.add_of_Y_eq hxeq hneg

end

end MetaTx.Secp256k1
