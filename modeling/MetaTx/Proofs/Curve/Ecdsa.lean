import Mathlib.Tactic.Module
import MetaTx.Curve.Ecdsa
import MetaTx.Proofs.Curve.Lift

/-!
# Signatures and the points they come from

A signature `(r, s)` over `z` by a secret `d` satisfies `s R = (z + r d) G` for a nonce point `R`
over the abscissa `r`, and the recovery id tells which of the two points it is. What is recovered is
`r⁻¹ (s R - z G)`, hence `d G`. A negated `s` goes with the negated point, which has the other
parity. Verification computes the nonce point from the key and looks at its abscissa, so it takes
the keys that are recovered, and no others as long as the abscissa cannot exceed the order.
-/

namespace MetaTx.Ecdsa

open Secp256k1

/-! ## Scalars -/

theorem n_pos : 0 < n := prime_n.pos

theorem natCast_scalar_eq_zero_iff {k : Nat} (hk : k < n) : (k : ZMod n) = 0 ↔ k = 0 := by
  rw [ZMod.natCast_eq_zero_iff]
  exact ⟨fun h => Nat.eq_zero_of_dvd_of_lt h hk, fun h => h ▸ dvd_zero n⟩

theorem cast_inverse (k : Nat) : (Modular.inverse n k : ZMod n) = (k : ZMod n)⁻¹ :=
  Modular.cast_inverse (by decide) k

theorem cast_order_sub {z : Nat} (hz : z ≤ n) : ((n - z : Nat) : ZMod n) = -(z : ZMod n) := by
  rw [Nat.cast_sub hz, ZMod.natCast_self, zero_sub]

theorem mul_g (k : Nat) : Point.mul k g = .ofGroup ((k : ZMod n) • generator) := by
  rw [← ofGroup_generator, Point.mul_ofGroup, Nat.cast_smul_eq_nsmul]

theorem combine_eq (k l : Nat) (P Q : Group) :
    Point.combine (k % n) (.ofGroup P) (l % n) (.ofGroup Q) =
      .ofGroup ((k : ZMod n) • P + (l : ZMod n) • Q) := by
  rw [Point.combine_ofGroup, ← Nat.cast_smul_eq_nsmul (ZMod n), ← Nat.cast_smul_eq_nsmul (ZMod n),
    ZMod.natCast_mod, ZMod.natCast_mod]

theorem smul_generator_ne_zero {k : Nat} (hpos : 0 < k) (hlt : k < n) :
    (k : ZMod n) • generator ≠ 0 :=
  smul_ne_zero ((natCast_scalar_eq_zero_iff hlt).not.mpr hpos.ne') generator_ne_zero

/-! ## Recovery -/

/-- The point of the group that is recovered from a nonce point. -/
noncomputable def recovered (r s z : Nat) (R : Group) : Group :=
  (r : ZMod n)⁻¹ • ((s : ZMod n) • R - (z : ZMod n) • generator)

theorem combine_recovered {r s z : Nat} (hz : z ≤ n) (R : Group) :
    Point.combine (Modular.inverse n r * s % n) (.ofGroup R) (Modular.inverse n r * (n - z) % n) g =
      .ofGroup (recovered r s z R) := by
  rw [← ofGroup_generator, combine_eq, Nat.cast_mul, Nat.cast_mul, cast_inverse, cast_order_sub hz,
    recovered]
  congr 1
  module

theorem recovered_neg {r s z : Nat} (hs : s ≤ n) (R : Group) :
    recovered r (n - s) z (-R) = recovered r s z R := by
  rw [recovered, recovered, cast_order_sub hs, neg_smul_neg]

/-- The points of a group but zero. -/
def nonzero? : Point → Option Point
  | .infinity => none
  | q => some q

theorem nonzero?_ofGroup {P : Group} (hP : P ≠ 0) : nonzero? (.ofGroup P) = some (.ofGroup P) := by
  match P with
  | .zero => exact absurd rfl hP
  | .some _ _ _ => rfl

theorem of_nonzero? {P : Group} {q : Point} (h : nonzero? (.ofGroup P) = some q) :
    P ≠ 0 ∧ q = .ofGroup P := by
  match P with
  | .zero => cases h
  | .some x y hP =>
    exact ⟨WeierstrassCurve.Affine.Point.some_ne_zero hP, (Option.some.inj h).symm⟩

/-- What is recovered, in terms of the group. -/
theorem recover?_eq {r s : Nat} (hr : r ≠ 0) (hs : s ≠ 0) (odd : Bool) (digest : Bytes) {R : Group}
    (hR : lift? r odd = some (.ofGroup R)) :
    recover? r s odd digest = nonzero? (.ofGroup (recovered r s (Bytes.toNat digest % n) R)) := by
  have hz : Bytes.toNat digest % n ≤ n := (Nat.mod_lt _ n_pos).le
  simp only [recover?, hr, hs, or_self, ↓reduceIte, hR, combine_recovered hz]
  rfl

theorem exists_of_lift? {r : Nat} {odd : Bool} {q : Point} (h : lift? r odd = some q) :
    ∃ R : Group, q = .ofGroup R := by
  obtain ⟨y, rfl, hcurve, -⟩ := of_lift? h
  obtain ⟨R, hR⟩ := exists_of_isOnCurve hcurve
  exact ⟨R, hR.symm⟩

/-- A point that is recovered comes from a nonce point over the abscissa of the signature. -/
theorem exists_of_recover? {r s : Nat} {odd : Bool} {digest : Bytes} {q : Point}
    (h : recover? r s odd digest = some q) :
    r ≠ 0 ∧ s ≠ 0 ∧ ∃ R : Group, lift? r odd = some (.ofGroup R) ∧
      recovered r s (Bytes.toNat digest % n) R ≠ 0 ∧
      q = .ofGroup (recovered r s (Bytes.toNat digest % n) R) := by
  by_cases hzero : r = 0 ∨ s = 0
  · rw [recover?, if_pos hzero] at h
    cases h
  · obtain ⟨hr, hs⟩ := not_or.mp hzero
    refine ⟨hr, hs, ?_⟩
    cases hlift : lift? r odd with
    | none =>
      simp only [recover?, if_neg hzero, hlift] at h
      cases h
    | some nonce =>
      obtain ⟨R, rfl⟩ := exists_of_lift? hlift
      rw [recover?_eq hr hs odd digest hlift] at h
      exact ⟨R, rfl, of_nonzero? h⟩

/-- A negated scalar and the other parity recover the same point. -/
theorem recover?_neg {r s : Nat} (hs : 0 < s) (hlt : s < n) (odd : Bool) (digest : Bytes) :
    recover? r (n - s) (!odd) digest = recover? r s odd digest := by
  by_cases hr : r = 0
  · simp only [recover?, hr, true_or, ↓reduceIte]
  · cases hlift : lift? r odd with
    | none =>
      have hnone : lift? r (!odd) = none := lift?_eq_none_iff.mpr (lift?_eq_none_iff.mp hlift)
      simp only [recover?, hlift, hnone]
      rw [if_neg (by omega), if_neg (by omega)]
    | some q =>
      obtain ⟨R, rfl⟩ := exists_of_lift? hlift
      rw [recover?_eq hr hs.ne' odd digest hlift,
        recover?_eq hr (Nat.sub_ne_zero_of_lt hlt) (!odd) digest (lift?_not hlift),
        recovered_neg hlt.le]

/-! ## Verification -/

/-- The point of the group whose abscissa is compared with that of the signature. -/
noncomputable def noncePoint (r s z : Nat) (Q : Group) : Group :=
  (s : ZMod n)⁻¹ • ((z : ZMod n) • generator + (r : ZMod n) • Q)

/-- Whether a point has an abscissa, modulo the order. -/
def hasAbscissa (r : Nat) : Point → Bool
  | .infinity => false
  | .affine x _ => x % n == r

theorem noncePoint_recovered {r s : Nat} (hr : (r : ZMod n) ≠ 0) (hs : (s : ZMod n) ≠ 0) (z : Nat)
    (R : Group) : noncePoint r s z (recovered r s z R) = R := by
  rw [noncePoint, recovered, smul_inv_smul₀ hr, add_sub_cancel, inv_smul_smul₀ hs]

theorem recovered_noncePoint {r s : Nat} (hr : (r : ZMod n) ≠ 0) (hs : (s : ZMod n) ≠ 0) (z : Nat)
    (Q : Group) : recovered r s z (noncePoint r s z Q) = Q := by
  rw [noncePoint, recovered, smul_inv_smul₀ hs, add_sub_cancel_left, inv_smul_smul₀ hr]

theorem noncePoint_neg {s : Nat} (hs : s ≤ n) (r z : Nat) (Q : Group) :
    noncePoint r (n - s) z Q = -noncePoint r s z Q := by
  rw [noncePoint, noncePoint, cast_order_sub hs, inv_neg, neg_smul]

theorem hasAbscissa_neg (r : Nat) (P : Group) :
    hasAbscissa r (.ofGroup (-P)) = hasAbscissa r (.ofGroup P) := by
  match P with
  | .zero => rfl
  | .some x y hP => rw [Point.ofGroup_neg (P := .some x y hP) rfl]; rfl

/-- Verification, in terms of the group. -/
theorem verify_eq {r s : Nat} (hr : r ≠ 0) (hs : s ≠ 0) (Q : Group) (digest : Bytes) :
    verify (.ofGroup Q) r s digest =
      hasAbscissa r (.ofGroup (noncePoint r s (Bytes.toNat digest % n) Q)) := by
  have hpoint : Point.combine (Modular.inverse n s * (Bytes.toNat digest % n) % n) g
      (Modular.inverse n s * r % n) (.ofGroup Q) =
        .ofGroup (noncePoint r s (Bytes.toNat digest % n) Q) := by
    rw [← ofGroup_generator, combine_eq, Nat.cast_mul, Nat.cast_mul, cast_inverse, noncePoint]
    congr 1
    module
  simp only [verify, hr, hs, or_self, ↓reduceIte, hpoint]
  rfl

/-- A negated scalar verifies as the scalar does. -/
theorem verify_neg {r s : Nat} (hs : 0 < s) (hlt : s < n) (Q : Group) (digest : Bytes) :
    verify (.ofGroup Q) r (n - s) digest = verify (.ofGroup Q) r s digest := by
  by_cases hr : r = 0
  · simp only [verify, hr, true_or, ↓reduceIte]
  · rw [verify_eq hr hs.ne', verify_eq hr (Nat.sub_ne_zero_of_lt hlt), noncePoint_neg hlt.le,
      hasAbscissa_neg]

/-- What is recovered verifies: its nonce point lies over the abscissa of the signature. -/
theorem verify_of_recover? {r s : Nat} {odd : Bool} {digest : Bytes} {q : Point} (hrlt : r < n)
    (hslt : s < n) (h : recover? r s odd digest = some q) :
    s ≠ 0 ∧ ∃ Q : Group, Q ≠ 0 ∧ q = .ofGroup Q ∧ verify q r s digest = true := by
  obtain ⟨hr, hs, R, hlift, hne, rfl⟩ := exists_of_recover? h
  obtain ⟨y, hR, -, -⟩ := of_lift? hlift
  refine ⟨hs, _, hne, rfl, ?_⟩
  rw [verify_eq hr hs, noncePoint_recovered ((natCast_scalar_eq_zero_iff hrlt).not.mpr hr)
    ((natCast_scalar_eq_zero_iff hslt).not.mpr hs), hR, hasAbscissa, Nat.mod_eq_of_lt hrlt,
    beq_self_eq_true]

/-- What verifies is recovered with one of the parities, unless the abscissa of the nonce point could
exceed the order. -/
theorem exists_recover?_of_verify {r s : Nat} {digest : Bytes} {Q : Group} (hrlt : r < n)
    (hslt : s < n) (hwrap : p ≤ r + n) (hQ : Q ≠ 0)
    (h : verify (.ofGroup Q) r s digest = true) :
    ∃ odd, recover? r s odd digest = some (.ofGroup Q) := by
  by_cases hzero : r = 0 ∨ s = 0
  · rw [verify, if_pos hzero] at h
    cases h
  · obtain ⟨hr, hs⟩ := not_or.mp hzero
    rw [verify_eq hr hs] at h
    cases hR : Point.ofGroup (noncePoint r s (Bytes.toNat digest % n) Q) with
    | infinity =>
      rw [hR] at h
      cases h
    | affine x y =>
      rw [hR, hasAbscissa, beq_iff_eq] at h
      have hcurve := isOnCurve_of_ofGroup hR
      -- Below the field prime there is room for one number with this remainder.
      have hx : x = r := by
        have hlt := (isOnCurve_iff.mp hcurve).1
        have hdiv := Nat.div_add_mod x n
        have hsmall : x / n = 0 := by
          by_contra hne
          have hmul := Nat.mul_le_mul_left n (Nat.one_le_iff_ne_zero.mpr hne)
          omega
        rw [h, hsmall, Nat.mul_zero, Nat.zero_add] at hdiv
        exact hdiv.symm
      subst hx
      have hlift := lift?_eq_some hcurve
      rw [← hR] at hlift
      refine ⟨_, (recover?_eq hr hs _ digest hlift).trans ?_⟩
      rw [recovered_noncePoint ((natCast_scalar_eq_zero_iff hrlt).not.mpr hr)
        ((natCast_scalar_eq_zero_iff hslt).not.mpr hs), nonzero?_ofGroup hQ]

/-! ## Signing -/

/-- A pair signs a number: it has scalars in their range, and its recovery id leads to a nonce point
that satisfies the equation. -/
structure Signs (secret z : Nat) (pair : Pair) : Prop where
  r_pos : 0 < pair.r
  r_lt : pair.r < n
  s_pos : 0 < pair.s
  s_le : pair.s ≤ halfN
  equation : ∃ R : Group, (pair.id < 2 → lift? pair.r (pair.id == 1) = some (.ofGroup R)) ∧
    (pair.s : ZMod n) • R = ((z + pair.r * secret : Nat) : ZMod n) • generator

theorem of_xor_one_lt {id : Nat} (h : id ^^^ 1 < 2) : id < 2 ∧ (id ^^^ 1 == 1) = !(id == 1) := by
  have hback : id = id ^^^ 1 ^^^ 1 := by rw [Nat.xor_assoc, Nat.xor_self, Nat.xor_zero]
  generalize id ^^^ 1 = flipped at h hback
  subst hback
  interval_cases flipped <;> decide

theorem nonce_equation {k : Nat} (hk : 0 < k) (hkn : k < n) (t : Nat) :
    ((Modular.inverse n k * (t % n) % n : Nat) : ZMod n) • ((k : ZMod n) • generator) =
      (t : ZMod n) • generator := by
  have hne := (natCast_scalar_eq_zero_iff hkn).not.mpr hk.ne'
  rw [ZMod.natCast_mod, Nat.cast_mul, ZMod.natCast_mod, cast_inverse, smul_smul]
  congr 1
  field_simp

theorem signs_of_signWith? {secret z k : Nat} {pair : Pair} (hk : 0 < k) (hkn : k < n)
    (h : signWith? secret z k = some pair) : Signs secret z pair := by
  simp only [signWith?] at h
  split at h
  · cases h
  · next x y hnonce =>
    rw [mul_g] at hnonce
    have hcurve := isOnCurve_of_ofGroup hnonce
    have hsigned := nonce_equation hk hkn (z + x % n * secret)
    have hslt := Nat.mod_lt (Modular.inverse n k * ((z + x % n * secret) % n)) n_pos
    generalize Modular.inverse n k * ((z + x % n * secret) % n) % n = s at h hsigned hslt
    -- A recovery id below two tells that the abscissa is below the order.
    have hlift : (if n ≤ x then 2 else 0) + y % 2 < 2 →
        lift? (x % n) ((if n ≤ x then 2 else 0) + y % 2 == 1) =
          some (.ofGroup ((k : ZMod n) • generator)) := by
      intro hid
      have hx : ¬n ≤ x := fun hle => by
        rw [if_pos hle] at hid
        omega
      rw [if_neg hx, zero_add, Nat.mod_eq_of_lt (Nat.not_le.mp hx), lift?_eq_some hcurve, hnonce]
    generalize (if n ≤ x then 2 else 0) + y % 2 = id at h hlift
    by_cases hzero : x % n = 0 ∨ s = 0
    · rw [if_pos hzero] at h
      cases h
    · rw [if_neg hzero] at h
      obtain ⟨hr, hs⟩ := not_or.mp hzero
      have hrlt := Nat.mod_lt x n_pos
      by_cases hhigh : halfN < s
      · rw [if_pos hhigh] at h
        cases h
        have hhalf := n_eq_halfN
        refine ⟨Nat.pos_of_ne_zero hr, hrlt, Nat.sub_pos_of_lt hslt,
          show n - s ≤ halfN by omega, -((k : ZMod n) • generator), fun hid => ?_, ?_⟩
        · obtain ⟨hlt, hflip⟩ := of_xor_one_lt hid
          exact hflip ▸ lift?_not (hlift hlt)
        · rw [cast_order_sub hslt.le, neg_smul_neg, hsigned]
      · rw [if_neg hhigh] at h
        cases h
        exact ⟨Nat.pos_of_ne_zero hr, hrlt, Nat.pos_of_ne_zero hs, Nat.not_lt.mp hhigh, _, hlift,
          hsigned⟩

theorem signs_of_sign? {secret : Nat} {digest : Bytes} {pair : Pair}
    (h : sign? secret digest = some pair) : Signs secret (Bytes.toNat digest % n) pair := by
  rw [sign?] at h
  obtain ⟨k, hk⟩ := NonceSource.exists_of_first? h
  rw [signDrawn?] at hk
  split at hk
  · next hrange => exact signs_of_signWith? hrange.1 hrange.2 hk
  · cases hk

/-- What a signature with a recovery id below two recovers to is the point of the secret. -/
theorem Signs.recover? {secret : Nat} {digest : Bytes} {pair : Pair}
    (h : Signs secret (Bytes.toNat digest % n) pair) (hid : pair.id < 2) (hpos : 0 < secret)
    (hlt : secret < n) :
    Ecdsa.recover? pair.r pair.s (pair.id == 1) digest = some (Point.mul secret g) := by
  obtain ⟨R, hlift, heq⟩ := h.equation
  have hr := (natCast_scalar_eq_zero_iff h.r_lt).not.mpr h.r_pos.ne'
  have hpoint : recovered pair.r pair.s (Bytes.toNat digest % n) R =
      (secret : ZMod n) • generator := by
    rw [recovered, heq, Nat.cast_add, Nat.cast_mul, add_smul, add_sub_cancel_left, mul_smul,
      inv_smul_smul₀ hr]
  rw [recover?_eq h.r_pos.ne' h.s_pos.ne' _ digest (hlift hid), hpoint, mul_g,
    nonzero?_ofGroup (smul_generator_ne_zero hpos hlt)]

end MetaTx.Ecdsa
