import MetaTx.Proofs.Address

/-!
# Checksummed texts

EIP-55 tells for each of the forty digits of an account whether it is a capital: it is, if it is a
letter and stands over a half byte from eight on in the hash of all the digits in lower case. Below
that is written down digit by digit. It leaves one text for each account, and that is the one that is
rendered.
-/

namespace MetaTx.Address

/-- The half byte of a hash that a digit stands over, the high half of each byte in front. -/
def halfByte (hash : Bytes) (i : Nat) : Nat :=
  if i % 2 = 0 then (hash.getD (i / 2) 0).toNat / 16 else (hash.getD (i / 2) 0).toNat % 16

/-- A text is the checksummed one of an account. -/
structure IsChecksummed (s : String) (account : Bytes) : Prop where
  width : account.length = width
  digits : ∃ digits, s.toList = '0' :: 'x' :: digits ∧ Text.lower digits = Hex.encode account ∧
    ∀ i c, digits[i]? = some c → (c.isUpper = true ↔ c.isAlpha = true ∧
      8 ≤ halfByte (keccakText (String.ofList (Hex.encode account))) i)

/-! ## Half bytes -/

theorem getElem?_nibbles {hash : Bytes} {i : Nat} (h : i < 2 * hash.length) :
    (nibbles hash)[i]? = some (halfByte hash i) := by
  induction hash generalizing i with
  | nil => exact absurd h (Nat.not_lt_zero i)
  | cons b bs ih =>
    change ((b.toNat / 16) :: (b.toNat % 16) :: nibbles bs)[i]? = _
    match i with
    | 0 => rfl
    | 1 => rfl
    | i + 2 =>
      rw [List.length_cons] at h
      have hodd : (i + 2) % 2 = i % 2 := by omega
      have hhalf : (i + 2) / 2 = i / 2 + 1 := by omega
      rw [List.getElem?_cons_succ, List.getElem?_cons_succ, ih (by omega), halfByte, halfByte, hodd,
        hhalf, List.getD_cons_succ]

theorem flatMap_utf8EncodeChar {cs : List Char} (h : ∀ c ∈ cs, c.toNat < 128) :
    cs.flatMap String.utf8EncodeChar = cs.map fun c => c.toNat.toUInt8 := by
  induction cs with
  | nil => rfl
  | cons c cs ih =>
    obtain ⟨hc, hcs⟩ := List.forall_mem_cons.mp h
    have hsize : c.utf8Size = 1 := Char.utf8Size_eq_one_iff.mpr (Nat.le_of_lt_succ hc)
    rw [List.flatMap_cons, String.utf8EncodeChar_eq_singleton hsize, ih hcs]
    rfl

/-- The bytes of a text of ASCII are its characters. -/
theorem ofText_ofList {cs : List Char} (h : ∀ c ∈ cs, c.toNat < 128) :
    Bytes.ofText (String.ofList cs) = cs.map fun c => c.toNat.toUInt8 := by
  change cs.utf8Encode.data.toList = _
  rw [List.utf8Encode, List.data_toByteArray, ← flatMap_utf8EncodeChar h]

/-! ## Digits -/

/-- A digit is the capital or the small one of its value, and a letter from ten on. -/
theorem eq_of_value {c : Char} {n : Nat} (h : Hex.digitValue? c = some n) :
    c = (if c.isUpper then (Hex.digit n).toUpper else Hex.digit n) ∧
      (c.isAlpha = true ↔ 10 ≤ n) := by
  have hall : ∀ m : Fin 128, (Hex.digitValue? (Char.ofNat m)).all fun n =>
      decide (Char.ofNat m = (if (Char.ofNat m).isUpper then (Hex.digit n).toUpper else
        Hex.digit n) ∧ ((Char.ofNat m).isAlpha = true ↔ 10 ≤ n)) := by decide +kernel
  have hc := hall ⟨c.toNat, Hex.lt_of_isDigit (Hex.isDigit_of_value h)⟩
  rw [Char.ofNat_toNat, h] at hc
  exact of_decide_eq_true hc

theorem lowerChar_checkedDigit {n : Nat} (h : n < 16) (nibble : Nat) :
    Text.lowerChar (checkedDigit (Hex.digit n) nibble) = Hex.digit n :=
  (Hex.lowerChar_of_value (digitValue?_checkedDigit h nibble)).2

/-- A digit is made a capital exactly if it is a letter over a half byte from eight on. -/
theorem isUpper_checkedDigit_iff {n : Nat} (h : n < 16) (nibble : Nat) :
    (checkedDigit (Hex.digit n) nibble).isUpper = true ↔
      (checkedDigit (Hex.digit n) nibble).isAlpha = true ∧ 8 ≤ nibble := by
  have hcapital : ∀ m : Fin 16, (Hex.digit m).toUpper.isUpper = (Hex.digit m).toUpper.isAlpha := by
    decide
  have hsmall : ∀ m : Fin 16, (Hex.digit m).isUpper = false := by decide
  unfold checkedDigit
  split
  · next hhigh => rw [hcapital ⟨n, h⟩, and_iff_left hhigh]
  · next hlow => simp [hsmall ⟨n, h⟩, hlow]

theorem exists_digit_of_mem_encode {bs : Bytes} :
    ∀ c ∈ Hex.encode bs, ∃ n < 16, c = Hex.digit n := by
  induction bs with
  | nil => simp [Hex.encode]
  | cons b bs ih =>
    have hb := b.toNat_lt
    rw [Hex.encode]
    exact List.forall_mem_cons.mpr ⟨⟨_, by omega, rfl⟩, List.forall_mem_cons.mpr
      ⟨⟨_, by omega, rfl⟩, ih⟩⟩

theorem lower_zipWith {digits : List Char} {hash : List Nat} (hlen : digits.length ≤ hash.length)
    (h : ∀ c ∈ digits, ∃ n < 16, c = Hex.digit n) :
    Text.lower (List.zipWith checkedDigit digits hash) = digits := by
  induction digits generalizing hash with
  | nil => rfl
  | cons c digits ih =>
    obtain ⟨⟨n, hn, rfl⟩, hdigits⟩ := List.forall_mem_cons.mp h
    cases hash with
    | nil => exact absurd hlen (Nat.not_succ_le_zero _)
    | cons nibble hash =>
      have hrest := ih (Nat.le_of_succ_le_succ hlen) hdigits
      rw [Text.lower] at hrest
      rw [List.zipWith_cons_cons, Text.lower, List.map_cons, lowerChar_checkedDigit hn, hrest]

/-! ## The one text of an account -/

theorem toList_render (account : Bytes) : (render account).toList = '0' :: 'x' ::
    List.zipWith checkedDigit (Hex.encode account)
      (nibbles (keccakText (String.ofList (Hex.encode account)))) := by
  have hascii : ∀ c ∈ Hex.encode account, c.toNat < 128 := fun c hc =>
    Hex.lt_of_isDigit (Hex.isDigit_of_mem_encode c hc)
  simp only [render, keccakText, ofText_ofList hascii, String.toList_append, String.toList_ofList]
  rfl

theorem isChecksummed_render {account : Bytes} (h : account.length = Address.width) :
    IsChecksummed (render account) account := by
  have hlen : (Hex.encode account).length = 40 := by rw [Hex.length_encode, h]; rfl
  have hhash : (keccakText (String.ofList (Hex.encode account))).length = 32 := length_keccak _
  refine ⟨h, _, toList_render account, lower_zipWith ?_ exists_digit_of_mem_encode, ?_⟩
  · rw [length_nibbles, hlen, hhash]
    decide
  · intro i c hc
    obtain ⟨x, nibble, hx, hnibble, rfl⟩ := List.getElem?_zipWith_eq_some.mp hc
    obtain ⟨n, hn, rfl⟩ := exists_digit_of_mem_encode x (List.mem_of_getElem? hx)
    have hi : i < 40 := hlen ▸ (List.getElem?_eq_some_iff.mp hx).1
    rw [getElem?_nibbles (by omega)] at hnibble
    rw [isUpper_checkedDigit_iff hn, Option.some.inj hnibble]

/-- Digits that are the same in lower case are the same if the same ones are capital. -/
theorem eq_of_lower {digits digits' : List Char} {bs : Bytes} {high : Nat → Prop}
    (h : Text.lower digits = Hex.encode bs) (h' : Text.lower digits' = Hex.encode bs)
    (hcase : ∀ i c, digits[i]? = some c → (c.isUpper = true ↔ c.isAlpha = true ∧ high i))
    (hcase' : ∀ i c, digits'[i]? = some c → (c.isUpper = true ↔ c.isAlpha = true ∧ high i)) :
    digits = digits' := by
  have hlen : digits.length = digits'.length := by
    have hboth := congrArg List.length (h.trans h'.symm)
    simpa only [Text.lower, List.length_map] using hboth
  refine List.ext_getElem hlen fun i hi hi' => ?_
  have hsame : Text.lowerChar digits[i] = Text.lowerChar digits'[i] := by
    have hboth := congrArg (·[i]?) (h.trans h'.symm)
    simpa [Text.lower, hi, hi'] using hboth
  obtain ⟨n, hn⟩ := Hex.exists_value ((Hex.digits_of_lower 0 h).2 _ (List.getElem_mem hi))
  obtain ⟨hlt, hlower⟩ := Hex.lowerChar_of_value hn
  have hn' := Hex.digitValue?_of_lower hlt (hsame ▸ hlower)
  obtain ⟨hc, halpha⟩ := eq_of_value hn
  obtain ⟨hc', halpha'⟩ := eq_of_value hn'
  have hupper : digits[i].isUpper = digits'[i].isUpper := by
    rw [Bool.eq_iff_iff, hcase i _ (List.getElem?_eq_getElem hi),
      hcase' i _ (List.getElem?_eq_getElem hi'), halpha, halpha']
  rw [hc, hc', hupper]

/-- An account has one checksummed text. -/
theorem IsChecksummed.unique {s t : String} {account : Bytes} (hs : IsChecksummed s account)
    (ht : IsChecksummed t account) : s = t := by
  obtain ⟨-, digits, hs, hlower, hcase⟩ := hs
  obtain ⟨-, digits', ht, hlower', hcase'⟩ := ht
  obtain rfl := eq_of_lower hlower hlower' hcase hcase'
  exact String.toList_inj.mp (hs.trans ht.symm)

theorem IsChecksummed.eq_render {s : String} {account : Bytes} (h : IsChecksummed s account) :
    s = render account :=
  h.unique (isChecksummed_render h.width)

end MetaTx.Address
