import MetaTx.Proofs.Curve.Order

/-!
# Points over an abscissa

Numbers are the coordinates of a point if they are below `p` and satisfy the equation, and then they
are those of a point of the group. An abscissa is lifted to the point whose ordinate has the wanted
parity if there is one, and the other parity gives the negative of that point.
-/

namespace MetaTx.Secp256k1

variable {x y : Nat}

theorem isOnCurve_iff : isOnCurve x y = true ↔
    x < p ∧ y < p ∧ (y : ZMod p) ^ 2 = (x : ZMod p) ^ 3 + 7 := by
  simp only [isOnCurve, Bool.and_eq_true, decide_eq_true_eq, beq_iff_eq, and_assoc]
  rw [← ZMod.natCast_eq_natCast_iff']
  push_cast
  ring_nf

theorem exists_of_isOnCurve (h : isOnCurve x y = true) :
    ∃ P : Group, .ofGroup P = Point.affine x y := by
  obtain ⟨hx, hy, heq⟩ := isOnCurve_iff.mp h
  refine ⟨.some x y (nonsingular_iff.mpr heq), ?_⟩
  rw [Point.ofGroup, ZMod.val_natCast_of_lt hx, ZMod.val_natCast_of_lt hy]

theorem isOnCurve_of_ofGroup {P : Group} (h : .ofGroup P = Point.affine x y) :
    isOnCurve x y = true := by
  match P with
  | .zero => cases h
  | .some X Y hP =>
    rw [Point.ofGroup, Point.affine.injEq] at h
    obtain ⟨rfl, rfl⟩ := h
    refine isOnCurve_iff.mpr ⟨ZMod.val_lt X, ZMod.val_lt Y, ?_⟩
    rw [ZMod.natCast_zmod_val, ZMod.natCast_zmod_val]
    exact nonsingular_iff.mp hP

/-! ## Square roots -/

/-- The root that is tried is one, if there is any. -/
theorem root_sq {a : Nat} {b : ZMod p} (h : b ^ 2 = (a : ZMod p)) :
    (Modular.pow p a ((p + 1) / 4) : ZMod p) ^ 2 = b ^ 2 := by
  have hexp : (p + 1) / 4 * 2 * 2 = p + 1 := by decide
  rw [Modular.cast_pow prime_p.one_lt, ← h, ← pow_mul, ← pow_mul, mul_comm, hexp, pow_succ,
    ZMod.pow_card, ← pow_two]

theorem cast_neg (y : Nat) (hy : y < p) : (Modular.sub p 0 y : ZMod p) = -(y : ZMod p) := by
  rw [Modular.cast_sub 0 hy.le, Nat.cast_zero, zero_sub]

theorem sub_zero_parity (hy : y < p) (hne : y ≠ 0) :
    Modular.sub p 0 y % 2 = 1 ↔ y % 2 = 0 := by
  have hodd : p % 2 = 1 := by decide
  rw [Modular.sub, zero_add, Nat.mod_eq_of_lt (show p - y < p by omega)]
  omega

theorem ordinate_nat_ne_zero (h : isOnCurve x y = true) : y ≠ 0 := by
  rintro rfl
  obtain ⟨-, -, heq⟩ := isOnCurve_iff.mp h
  exact ordinate_ne_zero heq Nat.cast_zero

theorem isOdd_neg (h : isOnCurve x y = true) :
    (Modular.sub p 0 y % 2 == 1) = !(y % 2 == 1) := by
  have hflip := sub_zero_parity (isOnCurve_iff.mp h).2.1 (ordinate_nat_ne_zero h)
  rw [Bool.eq_iff_iff, beq_iff_eq, hflip, Bool.not_eq_true', beq_eq_false_iff_ne]
  omega

theorem isOnCurve_neg (h : isOnCurve x y = true) : isOnCurve x (Modular.sub p 0 y) = true := by
  obtain ⟨hx, hy, heq⟩ := isOnCurve_iff.mp h
  refine isOnCurve_iff.mpr ⟨hx, Modular.sub_lt p_pos 0 y, ?_⟩
  rw [cast_neg y hy, neg_sq, heq]

/-- Two points over one abscissa are equal if their ordinates have the same parity. -/
theorem eq_of_parity {y' : Nat} (h : isOnCurve x y = true) (h' : isOnCurve x y' = true)
    (hparity : y % 2 = y' % 2) : y = y' := by
  obtain ⟨-, hy, heq⟩ := isOnCurve_iff.mp h
  obtain ⟨-, hy', heq'⟩ := isOnCurve_iff.mp h'
  refine (natCast_inj hy hy').mp (ordinate_inj heq heq' ?_)
  rwa [ZMod.val_natCast_of_lt hy, ZMod.val_natCast_of_lt hy']

/-! ## Lifting -/

theorem of_lift? {odd : Bool} {q : Point} (h : lift? x odd = some q) :
    ∃ y, q = .affine x y ∧ isOnCurve x y = true ∧ (y % 2 == 1) = odd := by
  simp only [lift?] at h
  generalize Modular.pow p (x * x * x + 7) ((p + 1) / 4) = root at h
  generalize (if (root % 2 == 1) == odd then root else Modular.sub p 0 root) = y at h
  by_cases hy : (isOnCurve x y && (y % 2 == 1) == odd) = true
  · rw [if_pos hy, Option.some.injEq] at h
    rw [Bool.and_eq_true, beq_iff_eq] at hy
    exact ⟨y, h.symm, hy⟩
  · rw [if_neg hy] at h
    cases h

theorem lift?_eq_some (h : isOnCurve x y = true) : lift? x (y % 2 == 1) = some (.affine x y) := by
  obtain ⟨hx, hy, heq⟩ := isOnCurve_iff.mp h
  have hcast : (y : ZMod p) ^ 2 = ((x * x * x + 7 : Nat) : ZMod p) := by
    rw [heq]
    push_cast
    ring
  have hroot := root_sq hcast
  generalize hrt : Modular.pow p (x * x * x + 7) ((p + 1) / 4) = root at hroot
  have hlt : root < p := hrt ▸ Modular.pow_lt prime_p.one_lt _ _
  have hcurve : isOnCurve x root = true := isOnCurve_iff.mpr ⟨hx, hlt, hroot.trans heq⟩
  -- Of the root and its negative, one has the parity of the ordinate.
  have hchosen : (if (root % 2 == 1) == (y % 2 == 1) then root else Modular.sub p 0 root) = y := by
    have hflip := sub_zero_parity hlt (ordinate_nat_ne_zero hcurve)
    split
    · next hparity =>
      rw [beq_iff_eq, Bool.eq_iff_iff, beq_iff_eq, beq_iff_eq] at hparity
      exact eq_of_parity hcurve h (by omega)
    · next hparity =>
      rw [beq_iff_eq, Bool.eq_iff_iff, beq_iff_eq, beq_iff_eq] at hparity
      exact eq_of_parity (isOnCurve_neg hcurve) h (by omega)
  simp only [lift?, hrt, hchosen, h, beq_self_eq_true, Bool.and_self, ↓reduceIte]

/-- An abscissa is lifted to the point over it whose ordinate has the wanted parity. -/
theorem lift?_eq_some_iff {odd : Bool} {q : Point} : lift? x odd = some q ↔
    ∃ y, q = .affine x y ∧ isOnCurve x y = true ∧ (y % 2 == 1) = odd := by
  constructor
  · exact of_lift?
  · rintro ⟨y, rfl, hcurve, rfl⟩
    exact lift?_eq_some hcurve

/-- An abscissa without a lift is that of no point, whatever the parity. -/
theorem lift?_eq_none_iff {odd : Bool} : lift? x odd = none ↔ ∀ y, isOnCurve x y = false := by
  constructor
  · intro hnone y
    by_contra hy
    rw [Bool.not_eq_false] at hy
    by_cases hparity : (y % 2 == 1) = odd
    · rw [lift?_eq_some_iff.mpr ⟨y, rfl, hy, hparity⟩] at hnone
      cases hnone
    · have hother : (Modular.sub p 0 y % 2 == 1) = odd := by
        rw [isOdd_neg hy, ← Bool.eq_not_of_ne (Ne.symm hparity)]
      rw [lift?_eq_some_iff.mpr ⟨_, rfl, isOnCurve_neg hy, hother⟩] at hnone
      cases hnone
  · intro hall
    cases hlift : lift? x odd with
    | none => rfl
    | some q =>
      obtain ⟨y, -, hcurve, -⟩ := of_lift? hlift
      rw [hall y] at hcurve
      cases hcurve

theorem Point.ofGroup_neg {P : Group} (h : ofGroup P = affine x y) :
    ofGroup (-P) = affine x (Modular.sub p 0 y) := by
  have hcurve := isOnCurve_of_ofGroup h
  match P with
  | .zero => cases h
  | .some X Y hP =>
    rw [ofGroup, affine.injEq] at h
    obtain ⟨rfl, rfl⟩ := h
    rw [WeierstrassCurve.Affine.Point.neg_some, ofGroup, affine.injEq, negY_eq]
    refine ⟨rfl, ?_⟩
    have hcast : ((Modular.sub p 0 Y.val : Nat) : ZMod p) = -Y := by
      rw [cast_neg _ (ZMod.val_lt Y), ZMod.natCast_zmod_val]
    rw [← hcast, ZMod.val_natCast_of_lt (Modular.sub_lt p_pos 0 _)]

/-- The other parity gives the negative of the point. -/
theorem lift?_not {odd : Bool} {P : Group} (h : lift? x odd = some (.ofGroup P)) :
    lift? x (!odd) = some (.ofGroup (-P)) := by
  obtain ⟨y, hq, hcurve, hparity⟩ := of_lift? h
  exact lift?_eq_some_iff.mpr
    ⟨_, Point.ofGroup_neg hq, isOnCurve_neg hcurve, by rw [isOdd_neg hcurve, hparity]⟩

end MetaTx.Secp256k1
