import MetaTx.Address
import MetaTx.Proofs.Bytes.Hex

/-!
# Accounts and their texts

The checksummed text of an account is read back to its 20 bytes, so that equal texts are equal
accounts. Whatever a reader of addresses accepts is an account of 20 bytes.
-/

namespace MetaTx.Address

/-! ## Digits of a checksum -/

theorem digitValue?_checkedDigit {n : Nat} (h : n < 16) (nibble : Nat) :
    Hex.digitValue? (checkedDigit (Hex.digit n) nibble) = some n := by
  unfold checkedDigit
  split
  · exact Hex.digitValue?_toUpper_digit h
  · exact Hex.digitValue?_digit h

/-- Digits are read alike whichever of them are capital. -/
theorem decodeFrom_checkedDigits (pos : Nat) (bs : Bytes) (hash : List Nat)
    (hlen : 2 * bs.length ≤ hash.length) :
    let digits := List.zipWith checkedDigit (Hex.encode bs) hash
    Hex.decodeFrom pos digits = .ok bs ∧ digits.all Hex.isDigit = true := by
  induction bs generalizing pos hash with
  | nil => simp [Hex.encode, Hex.decodeFrom]
  | cons b bs ih =>
    rw [List.length_cons] at hlen
    rcases hash with _ | ⟨n, _ | ⟨m, hash⟩⟩
    · rw [List.length_nil] at hlen
      omega
    · rw [List.length_singleton] at hlen
      omega
    · rw [List.length_cons, List.length_cons] at hlen
      have hb : b.toNat < 256 := b.toNat_lt
      have hhi := digitValue?_checkedDigit (n := b.toNat / 16) (by omega) n
      have hlo := digitValue?_checkedDigit (n := b.toNat % 16) (by omega) m
      obtain ⟨hread, hall⟩ := ih (pos + 2) hash (by omega)
      have hbyte : (b.toNat / 16 * 16 + b.toNat % 16).toUInt8 = b := by
        rw [Nat.div_add_mod']; simp
      simp only [Hex.encode, List.zipWith_cons_cons, List.all_cons, Bool.and_eq_true]
      refine ⟨?_, Hex.isDigit_of_value hhi, Hex.isDigit_of_value hlo, hall⟩
      rw [Hex.decodeFrom_pair hhi hlo, hread, hbyte]
      rfl

@[simp] theorem length_nibbles (bs : Bytes) : (nibbles bs).length = 2 * bs.length := by
  induction bs with
  | nil => rfl
  | cons b bs ih =>
    change (nibbles bs).length + 1 + 1 = 2 * (bs.length + 1)
    rw [ih]
    omega

/-! ## Reading texts -/

theorem ofText?_of_digits {s : String} {digits : List Char} {bs : Bytes}
    (hmark : Hex.dropAnyMark s.toList = digits) (hlen : digits.length = 40)
    (hall : digits.all Hex.isDigit = true) (hread : Hex.decodeFrom 0 digits = .ok bs) :
    ofText? s = some bs := by
  have heven : digits.length % 2 = 0 := by rw [hlen]
  have hwidth : digits.length = 2 * width := hlen
  simp only [ofText?, hmark, Hex.decodeDigits?, if_pos heven, if_pos hwidth, if_pos hall, hread]
  rfl

/-- The checksummed text of an account is read back. -/
theorem ofText?_render {bs : Bytes} (h : bs.length = width) : ofText? (render bs) = some bs := by
  have hlen : 2 * bs.length = 40 := by rw [h]; rfl
  let hash := nibbles (keccak ((Hex.encode bs).map fun c => c.toNat.toUInt8))
  have hhash : hash.length = 64 := by simp [hash]
  obtain ⟨hread, hall⟩ := decodeFrom_checkedDigits 0 bs hash (by omega)
  apply ofText?_of_digits _ _ hall hread
  · simp only [render, String.toList_append, String.toList_ofList]
    rfl
  · rw [List.length_zipWith, Hex.length_encode, hhash, hlen]
    rfl

/-- Equal texts are equal accounts. -/
theorem render_inj {a b : Bytes} (ha : a.length = width) (hb : b.length = width)
    (h : render a = render b) : a = b := by
  have hread := ofText?_render ha
  rw [h, ofText?_render hb] at hread
  exact (Option.some.inj hread).symm

theorem length_of_ofText? {s : String} {bs : Bytes} (h : ofText? s = some bs) :
    bs.length = width := by
  simp only [ofText?] at h
  split at h
  · next hlen =>
    have := Hex.length_of_decodeDigits? h (by rw [hlen]; rfl)
    omega
  · cases h

/-! ## Reading values -/

theorem ofValue_render {bs : Bytes} (h : bs.length = width) :
    ofValue (.text (render bs)) = .ok bs := by
  rw [ofValue, ofText?_render h]
  rfl

/-- Texts are accepted exactly if they are read. -/
theorem ofText?_of_elim {s : String} {bs : Bytes}
    (h : (ofText? s).elim (Except.error Fault.malformedAddress) Except.ok = .ok bs) :
    ofText? s = some bs := by
  cases hread : ofText? s with
  | none => rw [hread] at h; cases h
  | some found => rw [hread] at h; cases h; rfl

theorem length_of_ofValue {v : Value} {bs : Bytes} (h : ofValue v = .ok bs) :
    bs.length = width := by
  cases v with
  | bytes given =>
    simp only [ofValue] at h
    split at h
    · next hlen => cases h; exact hlen
    · cases h
  | text s => exact length_of_ofText? (ofText?_of_elim h)
  | int n =>
    simp only [ofValue] at h
    split at h
    · cases h
    · exact length_of_ofText? (ofText?_of_elim h)
  | null | bool _ | float _ | list _ | map _ => simp [ofValue] at h

end MetaTx.Address
