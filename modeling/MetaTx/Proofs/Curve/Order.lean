import Mathlib.Algebra.Module.ZMod
import Mathlib.GroupTheory.Perm.Cycle.Type
import MetaTx.Proofs.Curve.Group

/-!
# The group has order `n`

The generator has the prime order `n`, which divides the number of points. Over each abscissa there
are at most two points, so there are fewer than `3 n` points. No point has the ordinate zero, so
none is its own negative, and there are not `2 n` points either. All scalars can therefore be taken
modulo `n`.
-/

namespace MetaTx.Secp256k1

variable {x y : ZMod p}

/-! ## Ordinates -/

/-- Of a cube other than zero, the power would be one. -/
theorem pow_neg_seven_ne_one : (-7 : ZMod p) ^ ((p - 1) / 3) ≠ 1 := by
  have hseven : ((p - 7 : Nat) : ZMod p) = -7 := by
    rw [Nat.cast_sub (by decide), ZMod.natCast_self, zero_sub, Nat.cast_ofNat]
  rw [← hseven, ne_eq, Primality.pow_eq_one_iff prime_p.one_lt]
  decide +kernel

theorem cube_ne_neg_seven (x : ZMod p) : x ^ 3 ≠ -7 := by
  intro hcube
  have hne : x ≠ 0 := by
    rintro rfl
    have hseven : (7 : ZMod p) = 0 := by linear_combination hcube
    have h := (natCast_eq_zero_iff (show 7 < p by decide)).mp (by exact_mod_cast hseven)
    omega
  have hone : (-7 : ZMod p) ^ ((p - 1) / 3) = 1 := by
    rw [← hcube, ← pow_mul, show 3 * ((p - 1) / 3) = p - 1 by decide,
      ZMod.pow_card_sub_one_eq_one hne]
  exact pow_neg_seven_ne_one hone

theorem ordinate_ne_zero (h : y ^ 2 = x ^ 3 + 7) : y ≠ 0 := by
  rintro rfl
  exact cube_ne_neg_seven x (by linear_combination -h)

theorem ne_neg_of_ne_zero (hy : y ≠ 0) : y ≠ -y := fun h =>
  mul_ne_zero two_ne_zero hy (by linear_combination h)

theorem nonsingular_iff : (curve (ZMod p)).Nonsingular x y ↔ y ^ 2 = x ^ 3 + 7 := by
  constructor
  · exact fun h => equation_iff.mp h.1
  · intro h
    refine (WeierstrassCurve.Affine.nonsingular_iff ..).mpr ⟨equation_iff.mpr h, .inr ?_⟩
    simpa [curve] using ne_neg_of_ne_zero (ordinate_ne_zero h)

theorem val_neg_parity (hy : y ≠ 0) : (-y).val % 2 = 1 ↔ y.val % 2 = 0 := by
  have : NeZero y := ⟨hy⟩
  have hlt := ZMod.val_lt y
  have hodd : p % 2 = 1 := by decide
  rw [ZMod.val_neg_of_ne_zero]
  omega

/-- Two ordinates over one abscissa are equal if they have the same parity. -/
theorem ordinate_inj {y' : ZMod p} (h : y ^ 2 = x ^ 3 + 7) (h' : y' ^ 2 = x ^ 3 + 7)
    (hparity : y.val % 2 = y'.val % 2) : y = y' := by
  rcases sq_eq_sq_iff_eq_or_eq_neg.mp (h.trans h'.symm) with heq | heq
  · exact heq
  · have hflip := val_neg_parity (ordinate_ne_zero h')
    rw [← heq] at hflip
    omega

/-! ## The generator -/

theorem g_on_curve : ∃ P : Group, .ofGroup P = g := by
  refine ⟨.some (0x79BE667EF9DCBBAC55A06295CE870B07029BFCDB2DCE28D959F2815B16F81798 : Nat)
    (0x483ADA7726A3C4655DA4FBFC0E1108A8FD17B448A68554199C47D08FFB10D4B8 : Nat)
    (nonsingular_iff.mpr ?_), ?_⟩
  · rw [← Nat.cast_pow, ← Nat.cast_pow, ← Nat.cast_ofNat (n := 7), ← Nat.cast_add,
      ZMod.natCast_eq_natCast_iff']
    decide +kernel
  · rw [Point.ofGroup, ZMod.val_natCast_of_lt (by decide), ZMod.val_natCast_of_lt (by decide), g]

/-- The generator as a point of the group. -/
noncomputable def generator : Group := g_on_curve.choose

@[simp] theorem ofGroup_generator : .ofGroup generator = g := g_on_curve.choose_spec

theorem mul_n_g : Point.mul n g = .infinity := by decide +kernel

theorem addOrderOf_generator : addOrderOf generator = n := by
  refine addOrderOf_eq_prime (Point.ofGroup_injective ?_) fun h => ?_
  · rw [← Point.mul_ofGroup, ofGroup_generator, mul_n_g, Point.ofGroup_zero]
  · have hg := ofGroup_generator
    rw [h, Point.ofGroup_zero] at hg
    cases hg

/-! ## The number of points -/

/-- The abscissa of a point and the parity of its ordinate. -/
def Group.code : Group → Option (ZMod p × Bool)
  | .zero => none
  | .some x y _ => some (x, y.val % 2 == 1)

theorem Group.code_injective : Function.Injective Group.code := by
  intro P Q h
  match P, Q with
  | .zero, .zero => rfl
  | .zero, .some _ _ _ => cases h
  | .some _ _ _, .zero => cases h
  | .some x y hP, .some x' y' hQ =>
    simp only [code, Option.some.injEq, Prod.mk.injEq] at h
    obtain ⟨rfl, hparity⟩ := h
    have hmod : y.val % 2 = y'.val % 2 := by
      rw [Bool.eq_iff_iff, beq_iff_eq, beq_iff_eq] at hparity
      omega
    obtain rfl := ordinate_inj (nonsingular_iff.mp hP) (nonsingular_iff.mp hQ) hmod
    rfl

instance : Finite Group := Finite.of_injective _ Group.code_injective

theorem card_group_le : Nat.card Group ≤ 2 * p + 1 := by
  have h := Nat.card_le_card_of_injective _ Group.code_injective
  rw [Finite.card_option, Nat.card_prod, Nat.card_zmod, Nat.card_eq_fintype_card (α := Bool),
    Fintype.card_bool] at h
  omega

theorem add_self_ne_zero {P : Group} (hP : P ≠ 0) : P + P ≠ 0 := by
  match P with
  | .zero => exact absurd rfl hP
  | .some x y h =>
    have hne : y ≠ (curve (ZMod p)).negY x y := by
      rw [negY_eq]
      exact ne_neg_of_ne_zero (ordinate_ne_zero (nonsingular_iff.mp h))
    rw [WeierstrassCurve.Affine.Point.add_self_of_Y_ne hne]
    exact WeierstrassCurve.Affine.Point.some_ne_zero _

theorem not_two_dvd_card : ¬2 ∣ Nat.card Group := by
  intro hdvd
  obtain ⟨P, hP⟩ := exists_prime_addOrderOf_dvd_card' 2 hdvd
  have htwice : P + P = 0 := by rw [← two_nsmul, ← hP, addOrderOf_nsmul_eq_zero]
  refine add_self_ne_zero (fun hzero => ?_) htwice
  rw [hzero, addOrderOf_zero] at hP
  omega

theorem card_group : Nat.card Group = n := by
  obtain ⟨c, hc⟩ : n ∣ Nat.card Group := addOrderOf_generator ▸ addOrderOf_dvd_natCard generator
  have hle := card_group_le
  have hpos : 0 < Nat.card Group := Nat.card_pos
  have htwo := not_two_dvd_card
  rw [hc] at hle hpos htwo ⊢
  have hc3 : c < 3 := by
    by_contra h
    have hmul : n * 3 ≤ n * c := Nat.mul_le_mul_left n (by omega)
    have hbound : 2 * p + 1 < n * 3 := by decide
    omega
  match c, hc3 with
  | 0, _ => exact absurd hpos (by simp)
  | 1, _ => rw [mul_one]
  | 2, _ => exact absurd (Dvd.intro_left n rfl) htwo

theorem n_nsmul (P : Group) : n • P = 0 := card_group ▸ card_nsmul_eq_zero'

/-- Points are multiplied by scalars modulo `n`. -/
noncomputable instance : Module (ZMod n) Group := AddCommGroup.zmodModule n_nsmul

theorem generator_ne_zero : generator ≠ 0 := by
  intro h
  have horder := addOrderOf_generator
  rw [h, addOrderOf_zero] at horder
  exact prime_n.one_lt.ne horder

end MetaTx.Secp256k1
