import Mathlib.Tactic.IntervalCases
import MetaTx.Proofs.Cipher.Field

/-!
# Blocks are decrypted

Each step of a round is undone by its counterpart: bytes are restored, rows shifted back, columns
mixed with the inverse matrix, and a key added twice is no key. So the rounds are undone from the
last to the first.
-/

namespace MetaTx.Aes128

/-! ## Steps of a round -/

theorem unshiftRows_shiftRows (b : Block) : unshiftRows (shiftRows b) = b := by
  apply Vector.ext
  intro i hi
  simp only [unshiftRows, shiftRows, Vector.getElem_ofFn]
  congr 1
  omega

theorem map_restore_map_substitute (b : Block) : (b.map substitute).map restore = b := by
  apply Vector.ext
  intro i hi
  rw [Vector.getElem_map, Vector.getElem_map, restore_substitute]

theorem add_add (b k : Block) : add (add b k) k = b := by
  apply Vector.ext
  intro i hi
  rw [add, add, Vector.getElem_zipWith, Vector.getElem_zipWith, UInt8.xor_assoc, UInt8.xor_self,
    UInt8.xor_zero]

/-- Two matrices whose rows are turns of the first one undo each other if the first row of their
product is that of no change. -/
theorem unmix_mix {R : Type} [CommRing R] {m₀ m₁ m₂ m₃ n₀ n₁ n₂ n₃ : R}
    (h₀ : n₀ * m₀ + n₁ * m₃ + n₂ * m₂ + n₃ * m₁ = 1)
    (h₁ : n₀ * m₁ + n₁ * m₀ + n₂ * m₃ + n₃ * m₂ = 0)
    (h₂ : n₀ * m₂ + n₁ * m₁ + n₂ * m₀ + n₃ * m₃ = 0)
    (h₃ : n₀ * m₃ + n₁ * m₂ + n₂ * m₁ + n₃ * m₀ = 0) (x y z w : R) :
    n₀ * (m₀ * x + m₁ * y + m₂ * z + m₃ * w) + n₁ * (m₀ * y + m₁ * z + m₂ * w + m₃ * x) +
      n₂ * (m₀ * z + m₁ * w + m₂ * x + m₃ * y) + n₃ * (m₀ * w + m₁ * x + m₂ * y + m₃ * z) = x := by
  linear_combination x * h₀ + y * h₁ + z * h₂ + w * h₃

/-- A byte of a column that was mixed comes back. -/
theorem unmix_mix_byte (x y z w : UInt8) :
    mul 14 (mul 2 x ^^^ mul 3 y ^^^ mul 1 z ^^^ mul 1 w) ^^^
      mul 11 (mul 2 y ^^^ mul 3 z ^^^ mul 1 w ^^^ mul 1 x) ^^^
      mul 13 (mul 2 z ^^^ mul 3 w ^^^ mul 1 x ^^^ mul 1 y) ^^^
      mul 9 (mul 2 w ^^^ mul 3 x ^^^ mul 1 y ^^^ mul 1 z) = x :=
  @unmix_mix Element _ (2 : UInt8) (3 : UInt8) (1 : UInt8) (1 : UInt8) (14 : UInt8) (11 : UInt8)
    (13 : UInt8) (9 : UInt8) (by decide +kernel) (by decide +kernel) (by decide +kernel)
    (by decide +kernel) x y z w

theorem unmixColumns_mixColumns (b : Block) : unmixColumns (mixColumns b) = b := by
  apply Vector.ext
  intro i hi
  simp only [unmixColumns, mixColumns, mixWith, Vector.getElem_ofFn]
  -- At each place, the four bytes are those of its column.
  interval_cases i <;> exact unmix_mix_byte _ _ _ _

/-! ## Rounds -/

theorem unrounds_rounds (keys : List Block) (b : Block) : unrounds keys (rounds keys b) = b := by
  induction keys generalizing b with
  | nil => rfl
  | cons k keys ih =>
    cases keys with
    | nil =>
      rw [rounds, unrounds, add_add, unshiftRows_shiftRows, map_restore_map_substitute]
    | cons next keys =>
      rw [rounds, unrounds, ih, add_add, unmixColumns_mixColumns, unshiftRows_shiftRows,
        map_restore_map_substitute]
      all_goals simp

theorem decrypt_encrypt (key b : Block) : decrypt key (encrypt key b) = b := by
  rw [decrypt, encrypt, unrounds_rounds, add_add]

end MetaTx.Aes128
