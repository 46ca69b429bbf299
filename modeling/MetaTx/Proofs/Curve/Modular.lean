import Mathlib.FieldTheory.Finite.Basic
import MetaTx.Curve.Modular

/-!
# Modular arithmetic in a field

Powers, inverses and differences of numbers, read as elements of the integers modulo `m`, are what
their names say. An inverse is one if `m` is a prime above two.
-/

namespace MetaTx.Modular

variable {m : Nat}

theorem pow_lt (hm : 1 < m) (b e : Nat) : pow m b e < m := by
  rw [pow_eq m b e hm]
  exact Nat.mod_lt _ (by omega)

theorem cast_pow (hm : 1 < m) (b e : Nat) : (pow m b e : ZMod m) = (b : ZMod m) ^ e := by
  rw [pow_eq m b e hm, ZMod.natCast_mod, Nat.pow_eq, Nat.cast_pow]

theorem sub_lt (hm : 0 < m) (a b : Nat) : sub m a b < m := Nat.mod_lt _ hm

theorem cast_sub (a : Nat) {b : Nat} (hb : b ≤ m) :
    (sub m a b : ZMod m) = (a : ZMod m) - (b : ZMod m) := by
  rw [sub, ZMod.natCast_mod, Nat.cast_add, Nat.cast_sub hb, ZMod.natCast_self, zero_sub,
    sub_eq_add_neg]

theorem cast_inverse [Fact m.Prime] (hm : 2 < m) (a : Nat) :
    (inverse m a : ZMod m) = (a : ZMod m)⁻¹ := by
  rw [inverse, cast_pow (by omega)]
  by_cases ha : (a : ZMod m) = 0
  · rw [ha, inv_zero, zero_pow (by omega)]
  · have hone : (a : ZMod m) ^ (m - 2) * (a : ZMod m) = 1 := by
      rw [← pow_succ, show m - 2 + 1 = m - 1 by omega, ZMod.pow_card_sub_one_eq_one ha]
    exact eq_inv_of_mul_eq_one_left hone

end MetaTx.Modular
