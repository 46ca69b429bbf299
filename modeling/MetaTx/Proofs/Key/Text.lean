import MetaTx.Proofs.Bytes.Hex
import MetaTx.Proofs.Key.Private

/-!
# Texts of private keys

A key is kept as its digits, with the mark of digits in front or without and in either case, or in
the checked form, and blanks may stand around all that. Each of these texts is read to the key. None
of them starts like another kind of text, because no blank and no digit starts a mark.
-/

namespace MetaTx

/-! ## Blanks around -/

namespace Text

/-- What stands around characters of another class is dropped. -/
theorem trim_append {p : Char → Bool} {before cs after : List Char}
    (hbefore : ∀ c ∈ before, p c = true) (hafter : ∀ c ∈ after, p c = true)
    (hcs : ∀ c ∈ cs, p c = false) : trim p (before ++ cs ++ after) = cs := by
  have hback : dropTrailing p (cs ++ after) = dropTrailing p cs := by
    have hreverse : ∀ c ∈ after.reverse, p c = true := fun c hc =>
      hafter c (List.mem_reverse.mp hc)
    rw [dropTrailing, List.reverse_append, List.dropWhile_append_of_pos hreverse]
    rfl
  rw [trim, List.append_assoc, List.dropWhile_append_of_pos hbefore]
  cases cs with
  | nil =>
    rw [List.nil_append, List.dropWhile_eq_nil_iff.mpr hafter]
    rfl
  | cons c cs =>
    have hfront : ¬p c = true := Bool.not_eq_true _ ▸ hcs c List.mem_cons_self
    rw [List.cons_append, List.dropWhile_cons_of_neg hfront, ← List.cons_append, hback,
      dropTrailing_of_forall hcs]

end Text

/-! ## Digits in either case -/

namespace Hex

theorem decode_of_lower {cs : List Char} {bs : Bytes} (h : Text.lower cs = encode bs) :
    decode cs = .ok bs := by
  obtain ⟨hread, hdigits⟩ := digits_of_lower 0 h
  have hascii : cs.findIdx? (fun c => 128 ≤ c.toNat) = none := by
    rw [List.findIdx?_eq_none_iff]
    intro c hc
    have hlt := lt_of_isDigit (hdigits c hc)
    exact decide_eq_false (by omega)
  rw [decode, hascii]
  exact hread

theorem isBlank_of_isDigit {c : Char} (h : isDigit c = true) : Text.isBlank c = false := by
  have hall : ∀ m : Fin 128, isDigit (Char.ofNat m) = true → Text.isBlank (Char.ofNat m) = false := by
    decide +kernel
  have hc := hall ⟨c.toNat, lt_of_isDigit h⟩
  rw [Char.ofNat_toNat] at hc
  exact hc h

end Hex

/-! ## Texts -/

namespace PrivateKey

/-- What a text of a key is without the blanks around it. -/
inductive Spells (key : PrivateKey) : List Char → Prop
  /-- The digits of the key, each in either case. -/
  | digits {cs : List Char} (h : Text.lower cs = Hex.encode key.toBytes) : Spells key cs
  | marked {cs : List Char} (h : Text.lower cs = Hex.encode key.toBytes) :
    Spells key ('0' :: 'x' :: cs)
  | checked : Spells key key.toChecked.toList

/-- A text in which a key is kept, with blanks around it or without. -/
def IsTextOf (key : PrivateKey) (w : String) : Prop :=
  ∃ before cs after, w.toList = before ++ cs ++ after ∧ key.Spells cs ∧
    (∀ c ∈ before, Text.isBlank c = true) ∧ ∀ c ∈ after, Text.isBlank c = true

variable {key : PrivateKey} {cs : List Char}

theorem toList_toChecked (key : PrivateKey) :
    key.toChecked.toList = checkedMark.toList ++ key.unmarked.toList := by
  rw [toChecked_eq, String.toList_append]

theorem Spells.not_isBlank (h : key.Spells cs) : ∀ c ∈ cs, Text.isBlank c = false := by
  cases h with
  | digits h => exact fun c hc => Hex.isBlank_of_isDigit ((Hex.digits_of_lower 0 h).2 c hc)
  | marked h =>
    refine List.forall_mem_cons.mpr ⟨by decide, List.forall_mem_cons.mpr ⟨by decide, ?_⟩⟩
    exact fun c hc => Hex.isBlank_of_isDigit ((Hex.digits_of_lower 0 h).2 c hc)
  | checked =>
    have hmark : checkedMark.toList.all (fun c => !Text.isBlank c) = true := by decide
    intro c hc
    rw [toList_toChecked, List.mem_append] at hc
    rcases hc with hc | hc
    · simpa using List.all_eq_true.mp hmark c hc
    · exact Base58.not_isBlank_of_mem_alphabet c (Base58.mem_alphabet_of_mem_encodeChecked c hc)

/-- Digits and a mark are told apart by the first character. -/
theorem Spells.exists_cons (h : key.Spells cs) :
    ∃ c rest, cs = c :: rest ∧ (Hex.isDigit c = true ∨ c = 'P') := by
  cases h with
  | digits h =>
    cases cs with
    | nil =>
      have hlength := congrArg List.length h
      rw [Hex.length_encode, length_toBytes] at hlength
      cases hlength
    | cons c rest => exact ⟨c, rest, rfl, .inl ((Hex.digits_of_lower 0 h).2 c List.mem_cons_self)⟩
  | marked h => exact ⟨_, _, rfl, .inl (by decide)⟩
  | checked =>
    rw [toList_toChecked]
    exact ⟨_, _, rfl, .inr rfl⟩

theorem ofHex_of_decode {s : String} (h : Hex.decode (Hex.dropMark s).toList = .ok key.toBytes) :
    ofHex s = .ok key := by
  rw [ofHex, h]
  exact ofBytes_toBytes key

theorem dropMark_of_digits (h : ∀ c ∈ cs, Hex.isDigit c = true) :
    Hex.dropMark (String.ofList cs) = String.ofList cs := by
  unfold Hex.dropMark
  rw [String.toList_ofList]
  split
  · exact absurd (h 'x' (by simp)) (by decide)
  · rfl

theorem Spells.ofText {w : String} (h : key.Spells cs)
    (htrim : Text.trim Text.isBlank w.toList = cs) : PrivateKey.ofText w = .ok key := by
  simp only [PrivateKey.ofText, htrim]
  cases h with
  | digits h =>
    have hdigits := (Hex.digits_of_lower 0 h).2
    have hmark : ¬checkedMark.toList.isPrefixOf cs = true := by
      rw [List.isPrefixOf_iff_prefix]
      intro hmark
      exact absurd (hdigits 'P' (hmark.subset (by decide))) (by decide)
    rw [if_neg hmark]
    refine ofHex_of_decode ?_
    rw [dropMark_of_digits hdigits, String.toList_ofList, Hex.decode_of_lower h]
  | @marked cs h =>
    have hmark : ¬checkedMark.toList.isPrefixOf ('0' :: 'x' :: cs) = true := Bool.false_ne_true
    have hdrop : Hex.dropMark (String.ofList ('0' :: 'x' :: cs)) = String.ofList cs := by
      rw [Hex.dropMark, String.toList_ofList]
      rfl
    rw [if_neg hmark]
    refine ofHex_of_decode ?_
    rw [hdrop, String.toList_ofList, Hex.decode_of_lower h]
  | checked =>
    have hmark : checkedMark.toList.isPrefixOf key.toChecked.toList = true := by
      rw [toList_toChecked, List.isPrefixOf_iff_prefix]
      exact List.prefix_append _ _
    rw [if_pos hmark, String.ofList_toList, ofChecked_toChecked]

theorem ofText_of_isTextOf {w : String} (h : key.IsTextOf w) : ofText w = .ok key := by
  obtain ⟨before, cs, after, hw, hspells, hbefore, hafter⟩ := h
  refine hspells.ofText ?_
  rw [hw, Text.trim_append hbefore hafter hspells.not_isBlank]

end PrivateKey

end MetaTx
