import Mathlib.Data.Nat.Bitwise
import MetaTx.Proofs.Key.Signature

/-!
# Scalars in the lower half of the order

The order is odd, so a scalar and its mirror image never both lie in the lower half, and one of them
does if they are between zero and the order. Moving a scalar to the lower half picks that one, and
flips the lowest bit of the recovery id if it picks the mirror image. Integers of any size that come
from outside are treated alike. None of them is moved into the lower half from beyond the order or
from below zero.
-/

namespace MetaTx.Signature

/-! ## Recovery ids -/

theorem flipParity_natCast (id : Nat) : flipParity id = ((id ^^^ 1 : Nat) : Int) := by
  unfold flipParity
  rcases Nat.even_or_odd id with heven | hodd
  · have hmod := Nat.even_iff.mp heven
    rw [Nat.xor_one_of_even heven, if_pos (by omega)]
    omega
  · have hmod := Nat.odd_iff.mp hodd
    rw [Nat.xor_one_of_odd hodd, if_neg (by omega)]
    omega

/-- The recovery id that goes with a scalar once it is moved to the lower half. -/
def lowerId (s : Int) (id : Nat) : Nat := if (Secp256k1.halfN : Int) < s then id ^^^ 1 else id

/-- All bits but the lowest one stay as they are. -/
theorem lowerId_div_two (s : Int) (id : Nat) : lowerId s id / 2 = id / 2 := by
  unfold lowerId
  split
  · rw [Nat.xor_div_two]
    exact Nat.xor_zero _
  · rfl

theorem canonicalize_natCast (r s : Int) (id : Nat) :
    canonicalize r s id = (r, lower s, (lowerId s id : Int)) := by
  unfold canonicalize lower lowerId
  split
  · rw [flipParity_natCast]
  · rfl

/-! ## Mirror images -/

variable {s : Int}

theorem lower_of_le (h : s ≤ Secp256k1.halfN) : lower s = s := if_neg (Int.not_lt.mpr h)

theorem lowerId_of_le (h : s ≤ Secp256k1.halfN) (id : Nat) : lowerId s id = id :=
  if_neg (Int.not_lt.mpr h)

theorem lower_of_lt (h : (Secp256k1.halfN : Int) < s) : lower s = Secp256k1.n - s := if_pos h

theorem lowerId_of_lt (h : (Secp256k1.halfN : Int) < s) (id : Nat) : lowerId s id = id ^^^ 1 :=
  if_pos h

/-- Of a scalar and its mirror image, exactly one is above the lower half. -/
theorem sub_le_halfN_iff :
    (Secp256k1.n : Int) - s ≤ Secp256k1.halfN ↔ (Secp256k1.halfN : Int) < s := by
  have hn := Secp256k1.n_eq_halfN
  omega

theorem lower_sub (s : Int) : lower (Secp256k1.n - s) = lower s := by
  by_cases hhigh : (Secp256k1.halfN : Int) < s
  · rw [lower_of_lt hhigh, lower_of_le (sub_le_halfN_iff.mpr hhigh)]
  · have hmirror : (Secp256k1.halfN : Int) < Secp256k1.n - s :=
      Int.not_le.mp fun hle => hhigh (sub_le_halfN_iff.mp hle)
    rw [lower_of_lt hmirror, lower_of_le (Int.not_lt.mp hhigh)]
    omega

theorem lowerId_sub (s : Int) (id : Nat) :
    lowerId (Secp256k1.n - s) (id ^^^ 1) = lowerId s id := by
  by_cases hhigh : (Secp256k1.halfN : Int) < s
  · rw [lowerId_of_lt hhigh, lowerId_of_le (sub_le_halfN_iff.mpr hhigh)]
  · have hmirror : (Secp256k1.halfN : Int) < Secp256k1.n - s :=
      Int.not_le.mp fun hle => hhigh (sub_le_halfN_iff.mp hle)
    rw [lowerId_of_lt hmirror, lowerId_of_le (Int.not_lt.mp hhigh), Nat.xor_xor_cancel_right]

/-- Only scalars between zero and the order are moved to one that is not negative. -/
theorem lower_nonneg_iff : 0 ≤ lower s ↔ 0 ≤ s ∧ s ≤ Secp256k1.n := by
  have hn := Secp256k1.n_eq_halfN
  by_cases hhigh : (Secp256k1.halfN : Int) < s
  · rw [lower_of_lt hhigh]
    omega
  · rw [lower_of_le (Int.not_lt.mp hhigh)]
    omega

/-! ## The result -/

/-- **Moving to the lower half.** A scalar is kept or replaced by its mirror image, and with it the
recovery id is kept or has its lowest bit flipped. What comes out is between zero and half the order
exactly for scalars between zero and the order, and never for other integers. It is moved no
further, and it is the same for the mirror image under the other recovery id. -/
theorem canonicalize_lowers (r s : Int) (id : Nat) :
    ∃ (s' : Int) (id' : Nat), canonicalize r s id = (r, s', (id' : Int)) ∧
      (s' = s ∧ id' = id ∨ s' = Secp256k1.n - s ∧ id' = id ^^^ 1) ∧
      id'.testBit 1 = id.testBit 1 ∧ (id' ≤ 3 ↔ id ≤ 3) ∧
      (0 ≤ s' ∧ s' ≤ (Secp256k1.n / 2 : Nat) ↔ 0 ≤ s ∧ s ≤ Secp256k1.n) ∧
      canonicalize r s' id' = (r, s', (id' : Int)) ∧
      canonicalize r (Secp256k1.n - s) ((id ^^^ 1 : Nat) : Int) = (r, s', (id' : Int)) := by
  have hbits := lowerId_div_two s id
  have hle : lower s ≤ (Secp256k1.n / 2 : Nat) := lower_le s
  refine ⟨lower s, lowerId s id, canonicalize_natCast r s id, ?_, ?_, by omega, ?_, ?_, ?_⟩
  · by_cases hhigh : (Secp256k1.halfN : Int) < s
    · exact .inr ⟨lower_of_lt hhigh, lowerId_of_lt hhigh id⟩
    · exact .inl ⟨lower_of_le (Int.not_lt.mp hhigh), lowerId_of_le (Int.not_lt.mp hhigh) id⟩
  · rw [Nat.testBit_succ, Nat.testBit_succ, hbits]
  · rw [and_iff_left hle]
    exact lower_nonneg_iff
  · rw [canonicalize_natCast, lower_of_le (lower_le s), lowerId_of_le (lower_le s)]
  · rw [canonicalize_natCast, lower_sub, lowerId_sub]

/-- The least scalar above the lower half is moved to the greatest one in it. -/
example : canonicalize 5 (Secp256k1.halfN + 1) 2 =
    ((5 : Int), (Secp256k1.halfN : Int), (3 : Int)) := by
  decide

end MetaTx.Signature
