import Mathlib.NumberTheory.LucasPrimality
import MetaTx.Curve.Point
import MetaTx.Proofs.Curve.Modular

/-!
# The field and the group have prime order

Both numbers of the curve are shown to be prime by Lucas's test: an element whose order is one less
than the number. That needs the prime factors of one less than the number, which are shown to be
prime in the same way, down to numbers that trial division settles.
-/

namespace MetaTx.Primality

/-- A number with an element whose order is to be one less, and the prime factors of that. -/
structure Witness where
  number : Nat
  element : Nat
  factors : List Nat

/-- Whether trial division by numbers up to 141 shows a number to be prime. -/
def isSmallPrime (k : Nat) : Bool :=
  1 < k && k < 142 * 142 && (List.range 142).all fun d => d < 2 || d == k || k % d != 0

/-- Lucas's test. Factors are known to be prime, or are small. -/
def Witness.passes (known : List Nat) (w : Witness) : Bool :=
  1 < w.number && w.factors.prod + 1 == w.number &&
    w.factors.all (fun q => known.contains q || isSmallPrime q) &&
    Modular.pow w.number w.element (w.number - 1) == 1 &&
    w.factors.all fun q => Modular.pow w.number w.element ((w.number - 1) / q) != 1

/-- Whether all witnesses pass, each with the numbers of the earlier ones known to be prime. -/
def allPass : (known : List Nat) → List Witness → Bool
  | _, [] => true
  | known, w :: ws => w.passes known && allPass (w.number :: known) ws

/-! ## Tests and primes -/

theorem prime_of_isSmallPrime {k : Nat} (h : isSmallPrime k = true) : k.Prime := by
  simp only [isSmallPrime, Bool.and_eq_true, decide_eq_true_eq, List.all_eq_true, Bool.or_eq_true,
    beq_iff_eq, bne_iff_ne, List.mem_range] at h
  obtain ⟨⟨hone, hsmall⟩, hnone⟩ := h
  rw [Nat.prime_def_le_sqrt]
  refine ⟨hone, fun d hd hsqrt hdvd => ?_⟩
  have hsq : d * d ≤ k := Nat.le_sqrt.mp hsqrt
  have hlt : d < 142 := by nlinarith
  rcases hnone d hlt with (h | h) | h
  · omega
  · subst h
    nlinarith
  · exact h (Nat.mod_eq_zero_of_dvd hdvd)

theorem pow_eq_one_iff {k : Nat} (hk : 1 < k) (a e : Nat) :
    (a : ZMod k) ^ e = 1 ↔ Modular.pow k a e = 1 := by
  rw [← Modular.cast_pow hk, ← Nat.cast_one, ZMod.natCast_eq_natCast_iff',
    Nat.mod_eq_of_lt (Modular.pow_lt hk a e), Nat.mod_eq_of_lt hk]

theorem Witness.prime_of_passes {known : List Nat} {w : Witness} (hknown : ∀ q ∈ known, q.Prime)
    (h : w.passes known = true) : w.number.Prime := by
  simp only [passes, Bool.and_eq_true, decide_eq_true_eq, List.all_eq_true, Bool.or_eq_true,
    beq_iff_eq, bne_iff_ne, List.contains_iff_mem] at h
  obtain ⟨⟨⟨⟨hone, hprod⟩, hfactors⟩, hpow⟩, hpows⟩ := h
  have hprime : ∀ q ∈ w.factors, q.Prime := fun q hq =>
    (hfactors q hq).elim (hknown q) prime_of_isSmallPrime
  refine lucas_primality w.number (w.element : ZMod w.number)
    ((pow_eq_one_iff hone _ _).mpr hpow) fun q hq hdvd => ?_
  -- A prime that divides the product of primes is one of them.
  have hmem : q ∈ w.factors := by
    rw [← hprod, Nat.add_sub_cancel] at hdvd
    exact mem_list_primes_of_dvd_prod hq.prime (fun r hr => (hprime r hr).prime) hdvd
  exact fun hq => hpows q hmem ((pow_eq_one_iff hone _ _).mp hq)

theorem prime_of_allPass {ws : List Witness} {known : List Nat} (hknown : ∀ q ∈ known, q.Prime)
    (h : allPass known ws = true) : ∀ w ∈ ws, w.number.Prime := by
  induction ws generalizing known with
  | nil => simp
  | cons w ws ih =>
    rw [allPass, Bool.and_eq_true] at h
    have hw := Witness.prime_of_passes hknown h.1
    exact List.forall_mem_cons.mpr ⟨hw, ih (List.forall_mem_cons.mpr ⟨hw, hknown⟩) h.2⟩

/-! ## The two numbers -/

/-- The field of the curve and its order, behind the factors that they need. -/
def witnesses : List Witness := [
  ⟨24809, 6, [2, 2, 2, 7, 443]⟩,
  ⟨13331831, 13, [2, 5, 971, 1373]⟩,
  ⟨173378833005251801, 6, [2, 2, 2, 5, 5, 2621, 24809, 13331831]⟩,
  ⟨22149492674086928081353, 5, [2, 2, 2, 3, 5323, 173378833005251801]⟩,
  ⟨132896956044521568488119, 6, [2, 3, 22149492674086928081353]⟩,
  ⟨41201, 3, [2, 2, 2, 2, 5, 5, 103]⟩,
  ⟨96557, 2, [2, 2, 101, 239]⟩,
  ⟨20113, 10, [2, 2, 2, 2, 3, 419]⟩,
  ⟨1206781, 10, [2, 2, 3, 5, 20113]⟩,
  ⟨7240687, 3, [2, 3, 1206781]⟩,
  ⟨107590001, 3, [2, 2, 2, 2, 5, 5, 5, 5, 7, 29, 53]⟩,
  ⟨255515944373312847190720520512484175977, 3, [2, 2, 2, 7, 7, 11, 1627, 2657, 4423, 41201, 96557,
    7240687, 107590001]⟩,
  ⟨205115282021455665897114700593932402728804164701536103180137503955397371, 10, [2, 3, 5, 29, 29,
    31, 7723, 132896956044521568488119, 255515944373312847190720520512484175977]⟩,
  ⟨Secp256k1.p, 3, [2, 3, 7, 13441,
    205115282021455665897114700593932402728804164701536103180137503955397371]⟩,
  ⟨85831, 3, [2, 3, 5, 2861]⟩,
  ⟨4681609, 23, [2, 2, 2, 3, 97, 2011]⟩,
  ⟨107361793816595537, 3, [2, 2, 2, 2, 16699, 85831, 4681609]⟩,
  ⟨120233, 3, [2, 2, 2, 7, 19, 113]⟩,
  ⟨44706919, 6, [2, 3, 797, 9349]⟩,
  ⟨174723607534414371449, 3, [2, 2, 2, 17, 59, 4051, 120233, 44706919]⟩,
  ⟨305873, 3, [2, 2, 2, 2, 7, 2731]⟩,
  ⟨28181, 2, [2, 2, 5, 1409]⟩,
  ⟨545358713, 5, [2, 2, 2, 41, 59, 28181]⟩,
  ⟨1627771, 3, [2, 3, 5, 29, 1871]⟩,
  ⟨297159362677, 2, [2, 2, 3, 3, 11, 461, 1627771]⟩,
  ⟨29047611873442575647497758179, 2, [2, 293, 305873, 545358713, 297159362677]⟩,
  ⟨341948486974166000522343609283189, 2, [2, 2, 3, 3, 3, 109, 29047611873442575647497758179]⟩,
  ⟨Secp256k1.n, 7, [2, 2, 2, 2, 2, 2, 3, 149, 631, 107361793816595537, 174723607534414371449,
    341948486974166000522343609283189]⟩]

theorem allPass_witnesses : allPass [] witnesses = true := by decide +kernel

theorem prime_of_mem {k : Nat} (h : k ∈ witnesses.map Witness.number) : k.Prime := by
  obtain ⟨w, hw, rfl⟩ := List.mem_map.mp h
  exact prime_of_allPass (by simp) allPass_witnesses w hw

end MetaTx.Primality

namespace MetaTx.Secp256k1

theorem prime_p : p.Prime := Primality.prime_of_mem (by decide +kernel)

theorem prime_n : n.Prime := Primality.prime_of_mem (by decide +kernel)

instance : Fact p.Prime := ⟨prime_p⟩

instance : Fact n.Prime := ⟨prime_n⟩

end MetaTx.Secp256k1
