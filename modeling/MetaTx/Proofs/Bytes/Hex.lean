import MetaTx.Bytes.Hex
import MetaTx.Text.Case

/-!
# Reading hexadecimal digits

A digit is no white space, so a text of digits alone is read pair by pair: each pair gives one
byte, and no position is refused.
-/

namespace MetaTx.Hex

theorem digitValue?_digit {n : Nat} (h : n < 16) : digitValue? (digit n) = some n := by
  have hall : ∀ m : Fin 16, digitValue? (digit m) = some m.val := by decide
  exact hall ⟨n, h⟩

/-- The capital form of a digit has the same value. -/
theorem digitValue?_toUpper_digit {n : Nat} (h : n < 16) :
    digitValue? (digit n).toUpper = some n := by
  have hall : ∀ m : Fin 16, digitValue? (digit m).toUpper = some m.val := by decide
  exact hall ⟨n, h⟩

theorem isDigit_of_value {c : Char} {n : Nat} (h : digitValue? c = some n) : isDigit c = true := by
  rw [isDigit, h, Option.isSome_some]

theorem exists_value {c : Char} (h : isDigit c = true) : ∃ n, digitValue? c = some n :=
  Option.isSome_iff_exists.mp h

theorem lt_of_isDigit {c : Char} (h : isDigit c = true) : c.toNat < 128 := by
  obtain ⟨n, hn⟩ := exists_value h
  unfold digitValue? at hn
  split at hn
  · next hc => exact Nat.lt_of_le_of_lt hc.2 (by decide)
  · split at hn
    · next hc => exact Nat.lt_of_le_of_lt hc.2 (by decide)
    · split at hn
      · next hc => exact Nat.lt_of_le_of_lt hc.2 (by decide)
      · cases hn

theorem not_isBlank_of_isDigit {c : Char} (h : isDigit c = true) : isBlank c = false := by
  cases hb : isBlank c with
  | false => rfl
  | true =>
    simp only [isBlank, Bool.or_eq_true, beq_iff_eq] at hb
    rcases hb with ((((rfl | rfl) | rfl) | rfl) | rfl) | rfl
    all_goals exact absurd h (by decide)

@[simp] theorem length_encode (bs : Bytes) : (encode bs).length = 2 * bs.length := by
  induction bs with
  | nil => rfl
  | cons b bs ih =>
    rw [encode, List.length_cons, List.length_cons, List.length_cons, ih]
    omega

/-- A pair of digits gives one byte. -/
theorem decodeFrom_pair {c d : Char} {hi lo : Nat} (hc : digitValue? c = some hi)
    (hd : digitValue? d = some lo) (pos : Nat) (rest : List Char) :
    decodeFrom pos (c :: d :: rest) =
      (decodeFrom (pos + 2) rest).map ((hi * 16 + lo).toUInt8 :: ·) := by
  have hblank := not_isBlank_of_isDigit (isDigit_of_value hc)
  simp [decodeFrom, hblank, hc, hd]

/-! ## Digits in either case -/

/-- A character whose lower case is a digit has the value of that digit. -/
theorem digitValue?_of_lower {c : Char} {n : Nat} (hn : n < 16) (h : Text.lowerChar c = digit n) :
    digitValue? c = some n := by
  cases hupper : Text.isUpper c with
  | false =>
    rw [← Text.lowerChar_of_not_isUpper hupper, h, digitValue?_digit hn]
  | true =>
    have hall : ∀ (m : Fin 128) (n : Fin 16), Text.lowerChar (Char.ofNat m) = digit n →
        digitValue? (Char.ofNat m) = some n.val := by decide +kernel
    have hkelvin : ∀ n : Fin 16, Text.lowerChar Text.kelvin ≠ digit n := by decide
    rcases Bool.or_eq_true_iff.mp hupper with hascii | hc
    · have hlt : c.toNat < 128 := Nat.lt_of_le_of_lt (of_decide_eq_true hascii).2 (by decide)
      have hc := hall ⟨c.toNat, hlt⟩ ⟨n, hn⟩
      rw [Char.ofNat_toNat] at hc
      exact hc h
    · rw [eq_of_beq hc] at h
      exact absurd h (hkelvin ⟨n, hn⟩)

theorem digits_of_lower (pos : Nat) {cs : List Char} {bs : Bytes} (h : Text.lower cs = encode bs) :
    decodeFrom pos cs = .ok bs ∧ ∀ c ∈ cs, isDigit c = true := by
  induction bs generalizing pos cs with
  | nil =>
    obtain rfl := List.map_eq_nil_iff.mp h
    exact ⟨rfl, by simp⟩
  | cons b bs ih =>
    obtain ⟨c, cs, rfl, hc, h⟩ := List.map_eq_cons_iff.mp h
    obtain ⟨d, cs, rfl, hd, h⟩ := List.map_eq_cons_iff.mp h
    have hb := b.toNat_lt
    have hhigh := digitValue?_of_lower (by omega) hc
    have hlow := digitValue?_of_lower (by omega) hd
    obtain ⟨hread, hdigits⟩ := ih (pos + 2) h
    have hbyte : (b.toNat / 16 * 16 + b.toNat % 16).toUInt8 = b := by
      rw [Nat.div_add_mod' b.toNat 16]
      exact UInt8.ofNat_toNat
    refine ⟨?_, List.forall_mem_cons.mpr ⟨isDigit_of_value hhigh,
      List.forall_mem_cons.mpr ⟨isDigit_of_value hlow, hdigits⟩⟩⟩
    rw [decodeFrom_pair hhigh hlow, hread, hbyte]
    rfl

theorem lowerChar_of_value {c : Char} {n : Nat} (h : digitValue? c = some n) :
    n < 16 ∧ Text.lowerChar c = digit n := by
  have hall : ∀ m : Fin 128, (digitValue? (Char.ofNat m)).all fun n =>
      decide (n < 16 ∧ Text.lowerChar (Char.ofNat m) = digit n) := by decide +kernel
  have hc := hall ⟨c.toNat, lt_of_isDigit (isDigit_of_value h)⟩
  rw [Char.ofNat_toNat, h] at hc
  exact of_decide_eq_true hc

/-- Digits, an even number of them, are those of some bytes. -/
theorem exists_lower_of_digits {cs : List Char} (hdigits : ∀ c ∈ cs, isDigit c = true)
    (heven : cs.length % 2 = 0) : ∃ bs, Text.lower cs = encode bs ∧ 2 * bs.length = cs.length := by
  match cs with
  | [] => exact ⟨[], rfl, rfl⟩
  | [c] => simp at heven
  | c :: d :: rest =>
    obtain ⟨hc, hdigits⟩ := List.forall_mem_cons.mp hdigits
    obtain ⟨hd, hrest⟩ := List.forall_mem_cons.mp hdigits
    obtain ⟨high, hhigh⟩ := exists_value hc
    obtain ⟨low, hlow⟩ := exists_value hd
    obtain ⟨hhigh, hlowerHigh⟩ := lowerChar_of_value hhigh
    obtain ⟨hlow, hlowerLow⟩ := lowerChar_of_value hlow
    rw [List.length_cons, List.length_cons] at heven ⊢
    obtain ⟨bs, hbs, hlength⟩ := exists_lower_of_digits hrest (by omega)
    have hbyte : (high * 16 + low).toUInt8.toNat = high * 16 + low :=
      UInt8.toNat_ofNat_of_lt' (show high * 16 + low < 256 by omega)
    refine ⟨(high * 16 + low).toUInt8 :: bs, ?_, by rw [List.length_cons]; omega⟩
    have hfirst : (high * 16 + low) / 16 = high := by omega
    have hsecond : (high * 16 + low) % 16 = low := by omega
    rw [encode, hbyte, hfirst, hsecond, ← hlowerHigh, ← hlowerLow, ← hbs]
    rfl

/-- Digits alone, an even number of them, are all read. -/
theorem decodeFrom_of_digits (pos : Nat) (cs : List Char) (hdigits : cs.all isDigit = true)
    (heven : cs.length % 2 = 0) :
    ∃ bs, decodeFrom pos cs = .ok bs ∧ 2 * bs.length = cs.length := by
  obtain ⟨bs, hbs, hlength⟩ := exists_lower_of_digits (List.all_eq_true.mp hdigits) heven
  exact ⟨bs, (digits_of_lower pos hbs).1, hlength⟩

theorem length_of_decodeDigits? {cs : List Char} {bs : Bytes} (h : decodeDigits? cs = some bs)
    (heven : cs.length % 2 = 0) : 2 * bs.length = cs.length := by
  simp only [decodeDigits?, heven, ↓reduceIte] at h
  split at h
  · next hdigits =>
    obtain ⟨bs', hbs, hlen⟩ := decodeFrom_of_digits 0 cs hdigits heven
    rw [hbs] at h
    cases h
    exact hlen
  · cases h

/-! ## Reading what was written -/

theorem isDigit_of_mem_encode {bs : Bytes} : ∀ c ∈ encode bs, isDigit c = true := by
  induction bs with
  | nil => simp [encode]
  | cons b bs ih =>
    have hb := b.toNat_lt
    have hhigh : isDigit (digit (b.toNat / 16)) = true :=
      isDigit_of_value (digitValue?_digit (by omega))
    have hlow : isDigit (digit (b.toNat % 16)) = true :=
      isDigit_of_value (digitValue?_digit (by omega))
    rw [encode]
    exact List.forall_mem_cons.mpr ⟨hhigh, List.forall_mem_cons.mpr ⟨hlow, ih⟩⟩

theorem decodeFrom_encode (pos : Nat) (bs : Bytes) : decodeFrom pos (encode bs) = .ok bs := by
  induction bs generalizing pos with
  | nil => rfl
  | cons b bs ih =>
    have hb := b.toNat_lt
    have hbyte : (b.toNat / 16 * 16 + b.toNat % 16).toUInt8 = b := by
      rw [Nat.div_add_mod' b.toNat 16]
      exact UInt8.ofNat_toNat
    rw [encode, decodeFrom_pair (digitValue?_digit (by omega)) (digitValue?_digit (by omega)), ih,
      hbyte]
    rfl

theorem decodeDigits?_encode (bs : Bytes) : decodeDigits? (encode bs) = some bs := by
  have heven : (encode bs).length % 2 = 0 := by
    rw [length_encode]
    omega
  have hdigits : (encode bs).all isDigit = true := List.all_eq_true.mpr isDigit_of_mem_encode
  simp only [decodeDigits?, heven, hdigits, ↓reduceIte, decodeFrom_encode]
  rfl

theorem toList_render (bs : Bytes) : (render bs).toList = '0' :: 'x' :: encode bs := by
  rw [render, bare, String.toList_append, String.toList_ofList, String.toList_ofList]
  rfl

theorem dropMark_render (bs : Bytes) : dropMark (render bs) = String.ofList (encode bs) := by
  rw [dropMark, toList_render]
  rfl

theorem decode_encode (bs : Bytes) : decode (encode bs) = .ok bs := by
  have hascii : (encode bs).findIdx? (fun c => 128 ≤ c.toNat) = none := by
    rw [List.findIdx?_eq_none_iff]
    intro c hc
    have := lt_of_isDigit (isDigit_of_mem_encode c hc)
    exact decide_eq_false (by omega)
  rw [decode, hascii]
  exact decodeFrom_encode 0 bs

/-- Bytes in their written form are read back. -/
theorem decode_render (bs : Bytes) : decode (dropMark (render bs)).toList = .ok bs := by
  rw [dropMark_render, String.toList_ofList, decode_encode]

end MetaTx.Hex
