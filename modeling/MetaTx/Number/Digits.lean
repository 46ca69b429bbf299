/-!
# Digits of a number

The digits in a base, least significant first, and the number they stand for.
-/

namespace MetaTx.Digits

/-- The digits of a number; zero has none. -/
def ofNat (base n : Nat) : List Nat :=
  if h : base < 2 ∨ n = 0 then []
  else
    have : n / base < n := Nat.div_lt_self (by omega) (by omega)
    n % base :: ofNat base (n / base)
termination_by n

/-- The number that digits stand for. -/
def toNat (base : Nat) : List Nat → Nat
  | [] => 0
  | d :: ds => d + base * toNat base ds

theorem toNat_ofNat {base : Nat} (hb : 2 ≤ base) (n : Nat) :
    toNat base (ofNat base n) = n := by
  fun_induction ofNat base n with
  | case1 n h =>
    have : n = 0 := by omega
    simp [toNat, this]
  | case2 n h _ ih => rw [toNat, ih, Nat.mod_add_div]

end MetaTx.Digits
