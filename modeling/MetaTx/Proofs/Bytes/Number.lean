import Mathlib.Data.List.Induction
import MetaTx.Bytes

/-!
# Numbers in bytes

Reading inverts writing, in a fixed number of bytes as well as in as few as a number needs.
Byte strings of one length are ordered like the numbers that they spell, so a number that is
written in a fixed width is determined by its bytes. Texts are determined by theirs, too.
-/

namespace MetaTx.Bytes

theorem limit_zero : limit 0 = 1 := rfl

theorem limit_succ (width : Nat) : limit (width + 1) = limit width * 256 := rfl

theorem limit_pos (width : Nat) : 0 < limit width :=
  Nat.pow_pos (by decide)

/-! ## Reading -/

@[simp] theorem toNat_nil : toNat [] = 0 := rfl

theorem toNat_concat (bs : Bytes) (b : UInt8) : toNat (bs ++ [b]) = toNat bs * 256 + b.toNat := by
  simp [toNat, List.foldl_append]

theorem toNat_append (a b : Bytes) : toNat (a ++ b) = toNat a * limit b.length + toNat b := by
  induction b using List.reverseRecOn with
  | nil => simp [limit_zero]
  | append_singleton b x ih =>
    rw [← List.append_assoc, toNat_concat, ih, toNat_concat, List.length_append,
      List.length_singleton, limit_succ, Nat.add_mul, Nat.mul_assoc]
    omega

theorem toNat_replicate_zero (k : Nat) : toNat (List.replicate k 0) = 0 := by
  induction k with
  | zero => rfl
  | succ k ih => rw [List.replicate_succ', toNat_concat, ih]; rfl

theorem toNat_padLeft (width : Nat) (bs : Bytes) : toNat (padLeft width bs) = toNat bs := by
  rw [padLeft, toNat_append, toNat_replicate_zero, Nat.zero_mul, Nat.zero_add]

theorem toNat_lt (bs : Bytes) : toNat bs < limit bs.length := by
  induction bs using List.reverseRecOn with
  | nil => exact limit_pos 0
  | append_singleton bs b ih =>
    have hb : b.toNat < 256 := b.toNat_lt
    rw [toNat_concat, List.length_append, List.length_singleton, limit_succ]
    omega

/-! ## Writing in a fixed width -/

theorem ofNat_zero (n : Nat) : ofNat 0 n = [] := rfl

/-- The last byte is the remainder. -/
theorem ofNat_succ (width n : Nat) :
    ofNat (width + 1) n = ofNat width (n / 256) ++ [n.toUInt8] := by
  simp [ofNat, littleEndian]

/-- The first byte is the quotient by all that the other bytes can hold. -/
theorem ofNat_succ_cons (width n : Nat) :
    ofNat (width + 1) n = (n / limit width).toUInt8 :: ofNat width n := by
  induction width generalizing n with
  | zero => simp [ofNat_succ, ofNat_zero, limit_zero]
  | succ width ih =>
    rw [ofNat_succ, ih, ofNat_succ, Nat.div_div_eq_div_mul, Nat.mul_comm 256, ← limit_succ]
    rfl

theorem toNat_ofNat_mod (width n : Nat) : toNat (ofNat width n) = n % limit width := by
  induction width generalizing n with
  | zero => simp [ofNat_zero, limit_zero, Nat.mod_one]
  | succ width ih =>
    have hb : n.toUInt8.toNat = n % 256 := by simp
    rw [ofNat_succ, toNat_concat, ih, hb, limit_succ, Nat.mul_comm (limit width),
      Nat.mod_mul]
    omega

theorem toNat_ofNat {width n : Nat} (h : n < limit width) : toNat (ofNat width n) = n := by
  rw [toNat_ofNat_mod, Nat.mod_eq_of_lt h]

theorem ofNat_toNat (bs : Bytes) : ofNat bs.length (toNat bs) = bs := by
  induction bs using List.reverseRecOn with
  | nil => rfl
  | append_singleton bs b ih =>
    have hb : b.toNat < 256 := b.toNat_lt
    have hdiv : (toNat bs * 256 + b.toNat) / 256 = toNat bs := by omega
    have hlow : (toNat bs * 256 + b.toNat).toUInt8 = b := by
      apply UInt8.toNat_inj.mp
      change (toNat bs * 256 + b.toNat) % 256 = b.toNat
      omega
    rw [List.length_append, List.length_singleton, toNat_concat, ofNat_succ, hdiv, ih, hlow]

theorem ofNat_inj {width m n : Nat} (hm : m < limit width) (hn : n < limit width)
    (h : ofNat width m = ofNat width n) : m = n := by
  rw [← toNat_ofNat hm, h, toNat_ofNat hn]

/-! ## Writing in as few bytes as needed -/

theorem lt_limit_widthOf (n : Nat) : n < limit (widthOf n) := by
  unfold widthOf
  split
  · next h => rw [h]; exact limit_pos 0
  · have hlog : n < 2 ^ (n.log2 + 1) := Nat.lt_log2_self
    have hmono : 2 ^ (n.log2 + 1) ≤ 2 ^ (8 * (n.log2 / 8 + 1)) :=
      Nat.pow_le_pow_right (by decide) (by omega)
    rw [Nat.pow_mul] at hmono
    exact Nat.lt_of_lt_of_le hlog hmono

/-- One byte less than needed is too few. -/
theorem limit_le_of_widthOf {n width : Nat} (h : widthOf n = width + 1) : limit width ≤ n := by
  unfold widthOf at h
  split at h
  · cases h
  · next hn =>
    have hw : width = n.log2 / 8 := by omega
    have hlog : 2 ^ n.log2 ≤ n := Nat.log2_self_le hn
    have hmono : 2 ^ (8 * width) ≤ 2 ^ n.log2 := Nat.pow_le_pow_right (by decide) (by omega)
    rw [Nat.pow_mul] at hmono
    exact Nat.le_trans hmono hlog

theorem widthOf_le {n width : Nat} (h : n < limit width) : widthOf n ≤ width := by
  cases hw : widthOf n with
  | zero => exact Nat.zero_le _
  | succ k =>
    have hk := limit_le_of_widthOf hw
    have hlt : 256 ^ k < 256 ^ width := Nat.lt_of_le_of_lt hk h
    exact (Nat.pow_lt_pow_iff_right (by decide)).mp hlt

@[simp] theorem length_minimal (n : Nat) : (minimal n).length = widthOf n := length_ofNat _ _

theorem toNat_minimal (n : Nat) : toNat (minimal n) = n := toNat_ofNat (lt_limit_widthOf n)

/-- No zero byte stands in front. -/
theorem head?_minimal_ne_zero (n : Nat) : (minimal n).head? ≠ some 0 := by
  unfold minimal
  cases hw : widthOf n with
  | zero => simp [ofNat_zero]
  | succ width =>
    have hle := limit_le_of_widthOf hw
    have hlt := lt_limit_widthOf n
    rw [hw, limit_succ] at hlt
    have hq : n / limit width < 256 := Nat.div_lt_of_lt_mul hlt
    have hpos : 0 < n / limit width := Nat.div_pos hle (limit_pos width)
    rw [ofNat_succ_cons, List.head?_cons]
    intro h
    have hz : n / limit width % 256 = 0 := congrArg UInt8.toNat (Option.some.inj h)
    omega

/-! ## Texts -/

theorem ofText_inj {s t : String} (h : ofText s = ofText t) : s = t := by
  apply String.toByteArray_inj.mp
  apply ByteArray.ext
  exact Array.toList_inj.mp h

theorem toText?_ofText (s : String) : toText? (ofText s) = some s :=
  dif_pos s.isValidUTF8

/-- Bytes that are those of a text are those of the text that they are read as. -/
theorem ofText_of_toText? {bs : Bytes} {s : String} (h : toText? bs = some s) : ofText s = bs := by
  obtain ⟨hvalid, htext⟩ := Option.dite_none_right_eq_some.mp h
  rw [← Option.some.inj htext]
  rfl

end MetaTx.Bytes
