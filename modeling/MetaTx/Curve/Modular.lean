/-!
# Arithmetic modulo a prime

Powers by repeated squaring, and through them inverses. Zero is its own inverse.
-/

namespace MetaTx.Modular

/-- Squares `b` and halves `e` until `n` binary digits of `e` are used up. -/
def powLoop (m : Nat) : (n b e acc : Nat) → Nat
  | 0, _, _, acc => acc
  | n + 1, b, e, acc =>
    powLoop m n (b * b % m) (e / 2) (if e % 2 = 1 then acc * b % m else acc)

/-- The power `b ^ e` modulo `m`. -/
def pow (m b e : Nat) : Nat := powLoop m (e.log2 + 1) (b % m) e (1 % m)

/-- The inverse modulo a prime, as the power that Fermat's theorem gives. -/
def inverse (m a : Nat) : Nat := pow m a (m - 2)

/-- The difference modulo `m` of two numbers below it. -/
def sub (m a b : Nat) : Nat := (a + (m - b)) % m

theorem powLoop_eq (m : Nat) : ∀ n b e acc : Nat, e < Nat.pow 2 n → acc < m →
    powLoop m n b e acc = acc * Nat.pow b e % m := by
  simp only [Nat.pow_eq]
  intro n
  induction n with
  | zero =>
    intro b e acc he hacc
    have : e = 0 := by simpa using he
    subst this
    simp [powLoop, Nat.mod_eq_of_lt hacc]
  | succ n ih =>
    intro b e acc he hacc
    have he' : e / 2 < 2 ^ n := by
      rw [Nat.pow_succ] at he
      omega
    have hm : 0 < m := Nat.lt_of_le_of_lt (Nat.zero_le _) hacc
    have hsq : (b * b % m) ^ (e / 2) % m = b ^ (2 * (e / 2)) % m := by
      rw [← Nat.pow_mod, Nat.pow_mul, Nat.pow_two]
    rw [powLoop]
    split
    · have heq : b ^ e = b * b ^ (2 * (e / 2)) := by
        rw [← Nat.pow_succ']
        congr 1
        omega
      rw [ih _ _ _ he' (Nat.mod_lt _ hm), Nat.mul_mod, hsq, ← Nat.mul_mod, Nat.mod_mul_mod,
        heq, Nat.mul_assoc]
    · have heq : b ^ e = b ^ (2 * (e / 2)) := by
        congr 1
        omega
      rw [ih _ _ _ he' hacc, Nat.mul_mod, hsq, ← Nat.mul_mod, heq]

theorem pow_eq (m b e : Nat) (hm : 1 < m) : pow m b e = Nat.pow b e % m := by
  have he : e < Nat.pow 2 (e.log2 + 1) := Nat.lt_log2_self
  have h1 : 1 % m < m := Nat.mod_lt _ (Nat.lt_trans Nat.zero_lt_one hm)
  rw [pow, powLoop_eq m _ _ _ _ he h1, Nat.mod_eq_of_lt hm, Nat.one_mul, Nat.pow_eq,
    Nat.pow_eq, ← Nat.pow_mod]

end MetaTx.Modular
