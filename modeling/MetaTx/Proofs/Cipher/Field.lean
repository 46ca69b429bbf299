import Mathlib.Tactic.LinearCombination
import Mathlib.Tactic.Ring
import MetaTx.Cipher.Aes128

/-!
# Bytes as elements of a ring

With exclusive or as the sum, bytes are a commutative ring. The product is linear in both factors,
and it is told by what it does to the element one and to multiples of the element `x`, from which
sums make all others. Squares are linear as well, so that raising to the power 256 changes nothing,
and the power 254 taken twice is where it began.
-/

namespace MetaTx.Aes128

/-! ## Linearity -/

theorem forall_byte {P : UInt8 → Prop} (h : ∀ n : Fin 256, P (UInt8.ofNat n)) (a : UInt8) : P a := by
  have ha := h ⟨a.toNat, a.toNat_lt⟩
  rwa [UInt8.ofNat_toNat] at ha

/-- What leaves a byte at its top comes back at its bottom. -/
def carry (a : UInt8) : UInt8 := if a < 0x80 then 0 else 0x1b

theorem carry_xor (a b : UInt8) : carry (a ^^^ b) = carry a ^^^ carry b := by
  have htop : ∀ a : UInt8, a >>> 7 = 0 ∧ carry a = 0 ∨ a >>> 7 = 1 ∧ carry a = 0x1b :=
    forall_byte (by decide +kernel)
  have hsum := UInt8.shiftRight_xor (a := a) (b := b) (c := 7)
  obtain ⟨ha, hca⟩ | ⟨ha, hca⟩ := htop a <;> obtain ⟨hb, hcb⟩ | ⟨hb, hcb⟩ := htop b <;>
    obtain ⟨hab, hcab⟩ | ⟨hab, hcab⟩ := htop (a ^^^ b) <;>
    rw [ha, hb, hab] at hsum <;> rw [hca, hcb, hcab] <;> revert hsum <;> decide

theorem timesX_xor (a b : UInt8) : timesX (a ^^^ b) = timesX a ^^^ timesX b := by
  have heq : ∀ a, timesX a = a <<< 1 ^^^ carry a := fun a => rfl
  rw [heq, heq, heq, carry_xor, UInt8.shiftLeft_xor]
  ac_rfl

/-- What the lowest bit of a factor adds to the product. -/
def chosen (a b : UInt8) : UInt8 := if b &&& 1 = 1 then a else 0

theorem mulLoop_succ (n : Nat) (a b acc : UInt8) :
    mulLoop (n + 1) a b acc = mulLoop n (timesX a) (b >>> 1) (acc ^^^ chosen a b) := by
  rw [mulLoop, chosen]
  split
  · rfl
  · rw [UInt8.xor_zero]

theorem chosen_xor_left (a a' b : UInt8) : chosen (a ^^^ a') b = chosen a b ^^^ chosen a' b := by
  unfold chosen
  split
  · rfl
  · rfl

theorem chosen_xor_right (a b b' : UInt8) : chosen a (b ^^^ b') = chosen a b ^^^ chosen a b' := by
  have hbit : ∀ b : UInt8, b &&& 1 = 0 ∨ b &&& 1 = 1 :=
    forall_byte (by decide +kernel)
  have hsum : (b ^^^ b') &&& 1 = (b &&& 1) ^^^ (b' &&& 1) := by
    apply UInt8.toNat_inj.mp
    simp only [UInt8.toNat_and, UInt8.toNat_xor]
    exact Nat.and_xor_distrib_right
  unfold chosen
  rw [hsum]
  rcases hbit b with hb | hb <;> rcases hbit b' with hb' | hb' <;> simp [hb, hb']

theorem mulLoop_xor_left (n : Nat) (a a' b acc acc' : UInt8) :
    mulLoop n (a ^^^ a') b (acc ^^^ acc') = mulLoop n a b acc ^^^ mulLoop n a' b acc' := by
  induction n generalizing a a' b acc acc' with
  | zero => rfl
  | succ n ih =>
    have hacc : acc ^^^ acc' ^^^ (chosen a b ^^^ chosen a' b) =
        (acc ^^^ chosen a b) ^^^ (acc' ^^^ chosen a' b) := by ac_rfl
    rw [mulLoop_succ, mulLoop_succ, mulLoop_succ, timesX_xor, chosen_xor_left, hacc, ih]

theorem mulLoop_xor_right (n : Nat) (a b b' acc acc' : UInt8) :
    mulLoop n a (b ^^^ b') (acc ^^^ acc') = mulLoop n a b acc ^^^ mulLoop n a b' acc' := by
  induction n generalizing a b b' acc acc' with
  | zero => rfl
  | succ n ih =>
    have hacc : acc ^^^ acc' ^^^ (chosen a b ^^^ chosen a b') =
        (acc ^^^ chosen a b) ^^^ (acc' ^^^ chosen a b') := by ac_rfl
    rw [mulLoop_succ, mulLoop_succ, mulLoop_succ, UInt8.shiftRight_xor, chosen_xor_right, hacc, ih]

theorem mulLoop_timesX (n : Nat) (a b acc : UInt8) :
    mulLoop n (timesX a) b (timesX acc) = timesX (mulLoop n a b acc) := by
  induction n generalizing a b acc with
  | zero => rfl
  | succ n ih =>
    have hchosen : chosen (timesX a) b = timesX (chosen a b) := by
      unfold chosen
      split
      · rfl
      · rfl
    rw [mulLoop_succ, mulLoop_succ, hchosen, ← timesX_xor, ih]

theorem mul_xor_left (a a' b : UInt8) : mul (a ^^^ a') b = mul a b ^^^ mul a' b :=
  mulLoop_xor_left 8 a a' b 0 0

theorem mul_xor_right (a b b' : UInt8) : mul a (b ^^^ b') = mul a b ^^^ mul a b' :=
  mulLoop_xor_right 8 a b b' 0 0

theorem mul_timesX (a b : UInt8) : mul (timesX a) b = timesX (mul a b) :=
  mulLoop_timesX 8 a b 0

/-! ## The ring -/

/-- The sum of the powers of `x` whose numbers are listed and that a number holds as a bit. -/
def sumOfPowers (n : Nat) : List Nat → UInt8
  | [] => 0
  | i :: rest => (if n.testBit i then timesX^[i] 1 else 0) ^^^ sumOfPowers n rest

theorem eq_sumOfPowers : ∀ a : UInt8, a = sumOfPowers a.toNat (List.range 8) :=
  forall_byte (by decide +kernel)

/-- What holds of one, of multiples by `x` and of sums holds of every byte. -/
theorem byte_induction {P : UInt8 → Prop} (hxor : ∀ a b, P a → P b → P (a ^^^ b)) (hone : P 1)
    (hx : ∀ a, P a → P (timesX a)) (a : UInt8) : P a := by
  have hzero : P 0 := hxor 1 1 hone hone
  have hpower : ∀ i, P (timesX^[i] 1) := by
    intro i
    induction i with
    | zero => exact hone
    | succ i ih =>
      rw [Function.iterate_succ_apply']
      exact hx _ ih
  have hsum : ∀ (n : Nat) (powers : List Nat), P (sumOfPowers n powers) := by
    intro n powers
    induction powers with
    | nil => exact hzero
    | cons i rest ih =>
      refine hxor _ _ ?_ ih
      split
      · exact hpower i
      · exact hzero
  rw [eq_sumOfPowers a]
  exact hsum _ _

theorem one_mul_byte : ∀ b : UInt8, mul 1 b = b := forall_byte (by decide +kernel)

theorem mul_one_byte (a : UInt8) : mul a 1 = a := by
  induction a using byte_induction with
  | hxor a b ha hb => rw [mul_xor_left, ha, hb]
  | hone => rfl
  | hx a ha => rw [mul_timesX, ha]

theorem mul_timesX_right (a b : UInt8) : mul a (timesX b) = timesX (mul a b) := by
  induction a using byte_induction with
  | hxor a a' ha ha' => rw [mul_xor_left, mul_xor_left, timesX_xor, ha, ha']
  | hone => rw [one_mul_byte, one_mul_byte]
  | hx a ha => rw [mul_timesX, mul_timesX, ha]

theorem mul_comm_byte (a b : UInt8) : mul a b = mul b a := by
  induction a using byte_induction with
  | hxor a a' ha ha' => rw [mul_xor_left, mul_xor_right, ha, ha']
  | hone => rw [one_mul_byte, mul_one_byte]
  | hx a ha => rw [mul_timesX, mul_timesX_right, ha]

theorem mul_assoc_byte (a b c : UInt8) : mul (mul a b) c = mul a (mul b c) := by
  induction a using byte_induction with
  | hxor a a' ha ha' => rw [mul_xor_left, mul_xor_left, mul_xor_left, ha, ha']
  | hone => rw [one_mul_byte, one_mul_byte]
  | hx a ha => rw [mul_timesX, mul_timesX, mul_timesX, ha]

theorem zero_mul_byte (b : UInt8) : mul 0 b = 0 :=
  calc mul 0 b = mul 0 b ^^^ mul 0 b := mul_xor_left 0 0 b
    _ = 0 := UInt8.xor_self

/-- A byte as an element of the ring. -/
def Element : Type := UInt8

namespace Element

instance : Zero Element := ⟨(0 : UInt8)⟩

instance : Add Element := ⟨fun a b => UInt8.xor a b⟩

/-- Every element is its own negative. -/
instance : Neg Element := ⟨fun a => a⟩

instance : CommRing Element where
  mul := Aes128.mul
  one := (1 : UInt8)
  nsmul := nsmulRec
  zsmul := zsmulRec
  add_assoc := UInt8.xor_assoc
  zero_add _ := UInt8.zero_xor
  add_zero _ := UInt8.xor_zero
  add_comm := UInt8.xor_comm
  neg_add_cancel _ := UInt8.xor_self
  left_distrib := mul_xor_right
  right_distrib := mul_xor_left
  zero_mul := zero_mul_byte
  mul_zero a := (mul_comm_byte a 0).trans (zero_mul_byte a)
  mul_assoc := mul_assoc_byte
  one_mul := one_mul_byte
  mul_one := mul_one_byte
  mul_comm := mul_comm_byte

theorem add_self (a : Element) : a + a = 0 := UInt8.xor_self

theorem add_sq (a b : Element) : (a + b) ^ 2 = a ^ 2 + b ^ 2 :=
  calc (a + b) ^ 2 = a ^ 2 + b ^ 2 + (a * b + a * b) := by ring
    _ = a ^ 2 + b ^ 2 := by rw [add_self, add_zero]

theorem pow_eq_squares (a : Element) :
    a ^ 256 = (((((((a ^ 2) ^ 2) ^ 2) ^ 2) ^ 2) ^ 2) ^ 2) ^ 2 := by ring

theorem add_pow_256 (a b : Element) : (a + b) ^ 256 = a ^ 256 + b ^ 256 := by
  simp only [pow_eq_squares, add_sq]

instance : DecidableEq Element := inferInstanceAs (DecidableEq UInt8)

/-- The element whose powers sum up to all others. -/
def x : Element := timesX 1

theorem x_mul (a : Element) : x * a = timesX a :=
  (mul_timesX 1 a).trans (congrArg timesX (one_mul_byte a))

theorem induction {P : Element → Prop} (hadd : ∀ a b, P a → P b → P (a + b)) (hone : P 1)
    (hx : ∀ a, P a → P (x * a)) (a : Element) : P a :=
  byte_induction hadd hone (fun a ha => x_mul a ▸ hx a ha) a

theorem x_pow_256 : x ^ 256 = x := by
  rw [pow_eq_squares]
  decide +kernel

/-- Raising to the power 256 is linear, and changes no power of `x`. -/
theorem pow_256 (a : Element) : a ^ 256 = a := by
  induction a using induction with
  | hadd a b ha hb => rw [add_pow_256, ha, hb]
  | hone => rw [one_pow]
  | hx a ha => rw [mul_pow, ha, x_pow_256]

/-- The inverse, and zero for zero. -/
def inv (a : Element) : Element := inverse a

theorem inv_eq (a : Element) : inv a = a ^ 254 := by
  have hsquares : inv a =
      let a2 := a * a
      let a4 := a2 * a2
      let a8 := a4 * a4
      let a16 := a8 * a8
      let a32 := a16 * a16
      let a64 := a32 * a32
      a2 * (a4 * (a8 * (a16 * (a32 * (a64 * (a64 * a64)))))) := rfl
  rw [hsquares]
  ring

theorem inv_inv (a : Element) : inv (inv a) = a :=
  calc inv (inv a) = (a ^ 256) ^ 252 * a ^ 4 := by rw [inv_eq, inv_eq]; ring
    _ = a ^ 252 * a ^ 4 := by rw [pow_256]
    _ = a ^ 256 := by ring
    _ = a := pow_256 a

end Element

/-! ## Substitution -/

theorem inverse_inverse (a : UInt8) : inverse (inverse a) = a := Element.inv_inv a

theorem restore_substitute (a : UInt8) : restore (substitute a) = a := by
  -- What is done to the bits of the inverse is undone.
  have hbits : ∀ b : UInt8,
      rotl (b ^^^ rotl b 1 ^^^ rotl b 2 ^^^ rotl b 3 ^^^ rotl b 4 ^^^ 0x63) 1 ^^^
        rotl (b ^^^ rotl b 1 ^^^ rotl b 2 ^^^ rotl b 3 ^^^ rotl b 4 ^^^ 0x63) 3 ^^^
        rotl (b ^^^ rotl b 1 ^^^ rotl b 2 ^^^ rotl b 3 ^^^ rotl b 4 ^^^ 0x63) 6 ^^^ 0x05 = b :=
    forall_byte (by decide +kernel)
  rw [restore, substitute, hbits, inverse_inverse]

end MetaTx.Aes128
