import MetaTx.Proofs.Curve.Formulas
import MetaTx.Proofs.Curve.Prime

/-!
# Multiples in the group of the curve

Sums and multiples in Jacobian coordinates are those of the group of the curve over the integers
modulo `p`. The coordinates that come out at the end are the affine ones, so a multiple and a sum of
multiples are what they are in the group.
-/

namespace MetaTx.Secp256k1

/-- The group of the curve. -/
abbrev Group : Type := (curve (ZMod p)).Point

theorem p_pos : 0 < p := prime_p.pos

theorem natCast_eq_zero_iff {k : Nat} (hk : k < p) : (k : ZMod p) = 0 ↔ k = 0 := by
  rw [ZMod.natCast_eq_zero_iff]
  exact ⟨fun h => Nat.eq_zero_of_dvd_of_lt h hk, fun h => h ▸ dvd_zero p⟩

theorem natCast_inj {k l : Nat} (hk : k < p) (hl : l < p) :
    (k : ZMod p) = (l : ZMod p) ↔ k = l := by
  rw [ZMod.natCast_eq_natCast_iff', Nat.mod_eq_of_lt hk, Nat.mod_eq_of_lt hl]

theorem two_ne_zero : (2 : ZMod p) ≠ 0 := by
  have h := (natCast_eq_zero_iff (show 2 < p by decide)).not.mpr (by decide)
  exact_mod_cast h

theorem cast_sub_mod (a b : Nat) :
    (Modular.sub p a (b % p) : ZMod p) = (a : ZMod p) - (b : ZMod p) := by
  rw [Modular.cast_sub a (Nat.mod_lt b p_pos).le, ZMod.natCast_mod]

theorem cast_sub_sub (a b c : Nat) :
    (Modular.sub p a (Modular.sub p b c) : ZMod p) = (a : ZMod p) - (Modular.sub p b c : ZMod p) :=
  Modular.cast_sub a (Modular.sub_lt p_pos b c).le

namespace Jacobian

/-- Coordinates with a reduced last one stand for a point of the group. -/
structure StandsFor (a : Jacobian) (P : Group) : Prop where
  z_lt : a.z < p
  represents : Represents (a.x : ZMod p) (a.y : ZMod p) (a.z : ZMod p) P

variable {a b : Jacobian} {P Q : Group}

theorem infinity_standsFor : infinity.StandsFor 0 := ⟨p_pos, .infinity Nat.cast_zero⟩

theorem StandsFor.eq_zero (h : a.StandsFor P) (hz : a.z = 0) : P = 0 := by
  cases h.represents with
  | infinity => rfl
  | affine hne => exact absurd (by rw [hz, Nat.cast_zero]) hne

theorem StandsFor.cast_z_ne_zero (h : a.StandsFor P) (hz : a.z ≠ 0) : (a.z : ZMod p) ≠ 0 :=
  (natCast_eq_zero_iff h.z_lt).not.mpr hz

theorem StandsFor.double (h : a.StandsFor P) : (double a).StandsFor (P + P) := by
  refine ⟨Nat.mod_lt _ p_pos, ?_⟩
  convert h.represents.double two_ne_zero using 1
  · simp only [Jacobian.double, cast_sub_mod, ZMod.natCast_mod, Nat.cast_mul, Nat.cast_ofNat]
    ring
  · simp only [Jacobian.double, cast_sub_mod, cast_sub_sub, ZMod.natCast_mod, Nat.cast_mul,
      Nat.cast_ofNat]
    ring
  · simp only [Jacobian.double, ZMod.natCast_mod, Nat.cast_mul, Nat.cast_ofNat]

theorem StandsFor.add (ha : a.StandsFor P) (hb : b.StandsFor Q) : (add a b).StandsFor (P + Q) := by
  by_cases hza : a.z = 0
  · rw [Jacobian.add, if_pos hza, ha.eq_zero hza, zero_add]
    exact hb
  by_cases hzb : b.z = 0
  · rw [Jacobian.add, if_neg hza, if_pos hzb, hb.eq_zero hzb, add_zero]
    exact ha
  have hza' := ha.cast_z_ne_zero hza
  have hzb' := hb.cast_z_ne_zero hzb
  -- Equal residues of the cross products are equal abscissas, and equal ordinates.
  have hx : a.x * (b.z * b.z % p) % p = b.x * (a.z * a.z % p) % p ↔
      (a.x : ZMod p) * (b.z : ZMod p) ^ 2 = (b.x : ZMod p) * (a.z : ZMod p) ^ 2 := by
    rw [← natCast_inj (Nat.mod_lt _ p_pos) (Nat.mod_lt _ p_pos)]
    simp only [ZMod.natCast_mod, Nat.cast_mul, pow_two]
  have hy : a.y * (b.z * b.z % p * b.z % p) % p = b.y * (a.z * a.z % p * a.z % p) % p ↔
      (a.y : ZMod p) * (b.z : ZMod p) ^ 3 = (b.y : ZMod p) * (a.z : ZMod p) ^ 3 := by
    rw [← natCast_inj (Nat.mod_lt _ p_pos) (Nat.mod_lt _ p_pos)]
    simp only [ZMod.natCast_mod, Nat.cast_mul, pow_succ, pow_zero, one_mul]
  rw [Jacobian.add, if_neg hza, if_neg hzb]
  by_cases hxeq : a.x * (b.z * b.z % p) % p = b.x * (a.z * a.z % p) % p
  · obtain ⟨heq, hcancel⟩ := ha.represents.of_eq_x hb.represents hza' hzb' (hx.mp hxeq)
    by_cases hyeq : a.y * (b.z * b.z % p * b.z % p) % p = b.y * (a.z * a.z % p * a.z % p) % p
    · rw [← heq (hy.mp hyeq)]
      simp only [hxeq, hyeq, ↓reduceIte]
      exact ha.double
    · rw [hcancel (hy.not.mp hyeq)]
      simp only [hxeq, hyeq, ↓reduceIte]
      exact infinity_standsFor
  · have hne : (b.x : ZMod p) * (a.z : ZMod p) ^ 2 - (a.x : ZMod p) * (b.z : ZMod p) ^ 2 ≠ 0 :=
      fun h => hxeq (hx.mpr (sub_eq_zero.mp h).symm)
    have hsum := ha.represents.add_of_ne hb.represents hza' hzb' rfl rfl rfl rfl hne
    simp only [hxeq, ↓reduceIte]
    refine ⟨Nat.mod_lt _ p_pos, ?_⟩
    convert hsum using 1
    · simp only [cast_sub_mod, ZMod.natCast_mod, Nat.cast_mul, Nat.cast_ofNat]
      ring
    · simp only [cast_sub_mod, cast_sub_sub, ZMod.natCast_mod, Nat.cast_mul, Nat.cast_ofNat]
      ring
    · simp only [cast_sub_mod, ZMod.natCast_mod, Nat.cast_mul]
      ring

theorem StandsFor.mulLoop {m k : Nat} {acc : Jacobian} (ha : a.StandsFor P)
    (hacc : acc.StandsFor Q) (hk : k < 2 ^ m) : (mulLoop m a k acc).StandsFor (Q + k • P) := by
  induction m generalizing a k acc P Q with
  | zero =>
    have hzero : k = 0 := by simpa using hk
    rw [hzero, zero_nsmul, add_zero]
    exact hacc
  | succ m ih =>
    have hhalf : k / 2 < 2 ^ m := by
      rw [Nat.pow_succ] at hk
      omega
    rw [Jacobian.mulLoop]
    split
    · next hodd =>
      -- The lowest digit adds the point, the others add twice their multiple.
      have hsum : Q + k • P = Q + P + (k / 2) • (P + P) := by
        conv_lhs => rw [show k = 1 + k / 2 * 2 by omega]
        rw [add_nsmul, one_nsmul, mul_nsmul', two_nsmul, add_assoc]
      rw [hsum]
      exact ih ha.double (hacc.add ha) hhalf
    · next heven =>
      have hsum : Q + k • P = Q + (k / 2) • (P + P) := by
        conv_lhs => rw [show k = k / 2 * 2 by omega]
        rw [mul_nsmul', two_nsmul]
      rw [hsum]
      exact ih ha.double hacc hhalf

theorem StandsFor.mul (ha : a.StandsFor P) (k : Nat) : (mul k a).StandsFor (k • P) := by
  have h := ha.mulLoop infinity_standsFor (Nat.lt_log2_self : k < 2 ^ (k.log2 + 1))
  rwa [zero_add] at h

end Jacobian

/-! ## Points of the group and their coordinates -/

namespace Point

/-- The coordinates of a point of the group. -/
def ofGroup : Group → Point
  | .zero => infinity
  | .some x y _ => affine x.val y.val

@[simp] theorem ofGroup_zero : ofGroup 0 = infinity := rfl

theorem ofGroup_injective : Function.Injective ofGroup := by
  intro P Q h
  match P, Q with
  | .zero, .zero => rfl
  | .zero, .some _ _ _ => cases h
  | .some _ _ _, .zero => cases h
  | .some x y hP, .some x' y' hQ =>
    simp only [ofGroup, affine.injEq] at h
    obtain rfl := ZMod.val_injective p h.1
    obtain rfl := ZMod.val_injective p h.2
    rfl

end Point

variable {a : Jacobian} {P Q : Group}

theorem Jacobian.ofPoint_standsFor (P : Group) : (ofPoint (.ofGroup P)).StandsFor P := by
  match P with
  | .zero => exact infinity_standsFor
  | .some x y h =>
    refine ⟨prime_p.one_lt, represents_some h ?_ ?_ ?_⟩
    · simp [ofPoint, Point.ofGroup]
    · simp [ofPoint, Point.ofGroup]
    · simp [ofPoint, Point.ofGroup]

theorem natCast_mod_eq_val {k : Nat} {e : ZMod p} (h : (k : ZMod p) = e) : k % p = e.val := by
  rw [← h, ZMod.val_natCast]

theorem Jacobian.StandsFor.toPoint (h : a.StandsFor P) : a.toPoint = .ofGroup P := by
  by_cases hz : a.z = 0
  · rw [Jacobian.toPoint, if_pos hz, h.eq_zero hz, Point.ofGroup_zero]
  · have hinv := Modular.cast_inverse (show 2 < p by decide) a.z
    cases h.represents with
    | infinity hzero => exact absurd hzero (h.cast_z_ne_zero hz)
    | affine hne hsing =>
      rw [Jacobian.toPoint, if_neg hz, Point.ofGroup, Point.affine.injEq]
      constructor
      · apply natCast_mod_eq_val
        simp only [ZMod.natCast_mod, Nat.cast_mul, hinv]
        field_simp
      · apply natCast_mod_eq_val
        simp only [ZMod.natCast_mod, Nat.cast_mul, hinv]
        field_simp

theorem Point.mul_ofGroup (k : Nat) (P : Group) : mul k (ofGroup P) = ofGroup (k • P) :=
  ((Jacobian.ofPoint_standsFor P).mul k).toPoint

theorem Point.combine_ofGroup (k l : Nat) (P Q : Group) :
    combine k (ofGroup P) l (ofGroup Q) = ofGroup (k • P + l • Q) :=
  (((Jacobian.ofPoint_standsFor P).mul k).add ((Jacobian.ofPoint_standsFor Q).mul l)).toPoint

end MetaTx.Secp256k1
