import MetaTx.Proofs.Address.Checksum

/-!
# Spellings of an account

An account is spelled by forty digits, each in either case, behind one of two marks or none. Letters
of both cases claim to be those of the checksum, so such a text is taken only if it is the
checksummed one, mark and all. Whatever is taken for an account is brought to one form, and two
values that are taken come to the same form exactly if they stand for the same account.
-/

namespace MetaTx.Address

/-! ## Marks -/

/-- What may stand in front of the digits. -/
def marks : List (List Char) := [[], ['0', 'x'], ['0', 'X']]

theorem exists_mark (cs : List Char) : ∃ mark ∈ marks, cs = mark ++ Hex.dropAnyMark cs := by
  unfold Hex.dropAnyMark
  split
  · exact ⟨['0', 'x'], by decide, rfl⟩
  · exact ⟨['0', 'X'], by decide, rfl⟩
  · exact ⟨[], by decide, rfl⟩

/-- No letter of a mark is a digit, so a mark is told from the digits behind it. -/
theorem dropAnyMark_append {mark digits : List Char} (hmark : mark ∈ marks)
    (hdigits : ∀ c ∈ digits, Hex.isDigit c = true) : Hex.dropAnyMark (mark ++ digits) = digits := by
  simp only [marks, List.mem_cons, List.not_mem_nil, or_false] at hmark
  rcases hmark with rfl | rfl | rfl
  · rw [List.nil_append]
    unfold Hex.dropAnyMark
    split
    · exact absurd (hdigits 'x' (by simp)) (by decide)
    · exact absurd (hdigits 'X' (by simp)) (by decide)
    · rfl
  · rfl
  · rfl

/-! ## Spellings -/

/-- A text has digits behind a mark or none, and they are those of an account in either case. -/
structure Spells (s : String) (digits : List Char) (account : Bytes) : Prop where
  width : account.length = width
  text : ∃ mark ∈ marks, s.toList = mark ++ digits
  lower : Text.lower digits = Hex.encode account

/-- A value stands for an account: it is the bytes of the account, or a spelling. -/
inductive Denotes : Value → Bytes → Prop
  | bytes {account : Bytes} (h : account.length = width) : Denotes (.bytes account) account
  | text {s : String} {digits : List Char} {account : Bytes} (h : Spells s digits account) :
    Denotes (.text s) account

/-- The values that are taken for an account: twenty bytes, forty digits without letters of both
cases behind a mark or none, and checksummed texts. -/
inductive IsTaken : Value → Prop
  | bytes {bs : Bytes} (h : bs.length = width) : IsTaken (.bytes bs)
  | digits {s : String} {mark digits : List Char} (hs : s.toList = mark ++ digits)
      (hmark : mark ∈ marks) (hlength : digits.length = 40)
      (hdigits : ∀ c ∈ digits, Hex.isDigit c = true)
      (hcase : (∀ c ∈ digits, c.isUpper = false) ∨ ∀ c ∈ digits, c.isLower = false) :
    IsTaken (.text s)
  | checksummed {s : String} {account : Bytes} (h : IsChecksummed s account) : IsTaken (.text s)

namespace Spells

variable {s : String} {digits : List Char} {account : Bytes}

theorem length_digits (h : Spells s digits account) : digits.length = 40 := by
  have hlength := congrArg List.length h.lower
  rw [Text.lower, List.length_map, Hex.length_encode, h.width] at hlength
  exact hlength

theorem isDigit (h : Spells s digits account) : ∀ c ∈ digits, Hex.isDigit c = true :=
  (Hex.digits_of_lower 0 h.lower).2

theorem dropAnyMark (h : Spells s digits account) : Hex.dropAnyMark s.toList = digits := by
  obtain ⟨mark, hmark, hs⟩ := h.text
  rw [hs, dropAnyMark_append hmark h.isDigit]

theorem ofText? (h : Spells s digits account) : ofText? s = some account :=
  ofText?_of_digits h.dropAnyMark h.length_digits (List.all_eq_true.mpr h.isDigit)
    (Hex.digits_of_lower 0 h.lower).1

theorem isMixed_eq_false_iff (h : Spells s digits account) : isMixed s = false ↔
    (∀ c ∈ digits, c.isUpper = false) ∨ ∀ c ∈ digits, c.isLower = false := by
  simp only [isMixed, h.dropAnyMark, Bool.and_eq_false_iff, List.any_eq_false, Bool.not_eq_true]

end Spells

/-- Forty digits are those of some account. -/
theorem exists_spells {s : String} {mark digits : List Char} (hs : s.toList = mark ++ digits)
    (hmark : mark ∈ marks) (hlength : digits.length = 40)
    (hdigits : ∀ c ∈ digits, Hex.isDigit c = true) : ∃ account, Spells s digits account := by
  obtain ⟨account, hlower, hwidth⟩ := Hex.exists_lower_of_digits hdigits (by rw [hlength])
  refine ⟨account, ?_, ⟨mark, hmark, hs⟩, hlower⟩
  rw [width]
  omega

/-- A text is read as an account exactly if it spells it. -/
theorem ofText?_eq_some_iff {s : String} {account : Bytes} :
    ofText? s = some account ↔ ∃ digits, Spells s digits account := by
  constructor
  · intro h
    obtain ⟨mark, hmark, hs⟩ := exists_mark s.toList
    have hread := h
    simp only [ofText?] at hread
    split at hread
    · next hlength =>
      have hlength : (Hex.dropAnyMark s.toList).length = 40 := hlength
      have heven : (Hex.dropAnyMark s.toList).length % 2 = 0 := by rw [hlength]
      have hdigits : (Hex.dropAnyMark s.toList).all Hex.isDigit = true := by
        refine Decidable.byContradiction fun hnot => ?_
        simp only [Hex.decodeDigits?, if_pos heven, if_neg hnot] at hread
        cases hread
      obtain ⟨found, hfound⟩ := exists_spells hs hmark hlength (List.all_eq_true.mp hdigits)
      obtain rfl : found = account := Option.some.inj (hfound.ofText?.symm.trans h)
      exact ⟨_, hfound⟩
    · cases hread
  · rintro ⟨digits, h⟩
    exact h.ofText?

theorem exists_spells_render {account : Bytes} (h : account.length = width) :
    ∃ digits, Spells (render account) digits account :=
  ofText?_eq_some_iff.mp (ofText?_render h)

/-! ## Normal forms -/

theorem normal_bytes {account : Bytes} (h : account.length = width) :
    normal (.bytes account) = .ok (render account) := by
  rw [normal, if_pos h]

/-- A spelling is taken if its letters are of one case, or if it is the checksummed text. -/
theorem normal_text_eq_ok_iff {s t : String} {digits : List Char} {account : Bytes}
    (h : Spells s digits account) : normal (.text s) = .ok t ↔ t = render account ∧
      ((∀ c ∈ digits, c.isUpper = false) ∨ (∀ c ∈ digits, c.isLower = false) ∨
        s = render account) := by
  rw [← or_assoc, ← h.isMixed_eq_false_iff]
  simp only [normal, h.ofText?, Bool.and_eq_true, bne_iff_ne]
  -- Only a text with letters of both cases is compared with the checksummed one.
  by_cases hrefused : isMixed s = true ∧ s ≠ render account
  · rw [if_pos hrefused]
    simp [hrefused.1, hrefused.2]
  · rw [if_neg hrefused, Except.ok.injEq, eq_comm, iff_self_and]
    intro _
    by_cases hmixed : isMixed s = true
    · exact .inr (Decidable.byContradiction fun hne => hrefused ⟨hmixed, hne⟩)
    · exact .inl (Bool.not_eq_true _ ▸ hmixed)

/-- What has a normal form stands for an account, and the form is the checksummed text of it. -/
theorem exists_denotes_of_normal {v : Value} {t : String} (h : normal v = .ok t) :
    ∃ account, Denotes v account ∧ account.length = width ∧ t = render account := by
  cases v with
  | bytes bs =>
    simp only [normal] at h
    split at h
    · next hlength =>
      cases h
      exact ⟨bs, .bytes hlength, hlength, rfl⟩
    · cases h
  | text s =>
    cases hread : ofText? s with
    | none =>
      simp only [normal, hread] at h
      cases h
    | some account =>
      obtain ⟨digits, hspells⟩ := ofText?_eq_some_iff.mp hread
      exact ⟨account, .text hspells, hspells.width, ((normal_text_eq_ok_iff hspells).mp h).1⟩
  | null | bool _ | int _ | float _ | list _ | map _ => simp [normal] at h

theorem Denotes.width {v : Value} {account : Bytes} (h : Denotes v account) :
    account.length = width := by
  cases h with
  | bytes h => exact h
  | text h => exact h.width

/-- A value stands for one account at most. -/
theorem Denotes.unique {v : Value} {a b : Bytes} (ha : Denotes v a) (hb : Denotes v b) : a = b := by
  cases ha with
  | bytes ha =>
    cases hb with
    | bytes hb => rfl
  | text ha =>
    cases hb with
    | text hb => exact Option.some.inj (ha.ofText?.symm.trans hb.ofText?)

theorem exists_of_normal_text {s t : String} (h : normal (.text s) = .ok t) :
    ∃ account : Bytes, account.length = width ∧ ofText? s = some account ∧ t = render account := by
  obtain ⟨account, hdenotes, hlength, ht⟩ := exists_denotes_of_normal h
  cases hdenotes with
  | text hspells => exact ⟨account, hlength, hspells.ofText?, ht⟩

/-- A text in normal form is read as the account that it was made of. -/
theorem ofText?_of_normal {s t : String} {account : Bytes} (h : normal (.text s) = .ok t)
    (hlength : account.length = width) (ht : t = render account) : ofText? s = some account := by
  obtain ⟨found, hfound, hread, hrender⟩ := exists_of_normal_text h
  rw [hread, render_inj hfound hlength (hrender.symm.trans ht)]

theorem exists_normal_of_isTaken {v : Value} (h : IsTaken v) : ∃ t, normal v = .ok t := by
  cases h with
  | bytes h => exact ⟨_, normal_bytes h⟩
  | digits hs hmark hlength hdigits hcase =>
    obtain ⟨account, hspells⟩ := exists_spells hs hmark hlength hdigits
    refine ⟨_, (normal_text_eq_ok_iff hspells).mpr ⟨rfl, ?_⟩⟩
    exact or_assoc.mp (.inl hcase)
  | checksummed h =>
    obtain rfl := h.eq_render
    obtain ⟨digits, hspells⟩ := exists_spells_render h.width
    exact ⟨_, (normal_text_eq_ok_iff hspells).mpr ⟨rfl, .inr (.inr rfl)⟩⟩

/-- A value has a normal form exactly if it is taken. -/
theorem exists_normal_iff {v : Value} : (∃ t, normal v = .ok t) ↔ IsTaken v := by
  refine ⟨?_, exists_normal_of_isTaken⟩
  rintro ⟨t, h⟩
  obtain ⟨account, hdenotes, hlength, -⟩ := exists_denotes_of_normal h
  cases hdenotes with
  | bytes hbytes => exact .bytes hbytes
  | text hspells =>
    obtain ⟨mark, hmark, hs⟩ := hspells.text
    obtain ⟨-, hupper | hlower | hchecksummed⟩ := (normal_text_eq_ok_iff hspells).mp h
    · exact .digits hs hmark hspells.length_digits hspells.isDigit (.inl hupper)
    · exact .digits hs hmark hspells.length_digits hspells.isDigit (.inr hlower)
    · exact .checksummed (hchecksummed ▸ isChecksummed_render hlength)

/-- The normal form is the checksummed text of the account that the value stands for. -/
theorem normal_eq_render {v : Value} {account : Bytes} (hdenotes : Denotes v account)
    (h : IsTaken v) : normal v = .ok (render account) := by
  obtain ⟨t, ht⟩ := exists_normal_of_isTaken h
  obtain ⟨found, hfound, -, rfl⟩ := exists_denotes_of_normal ht
  rw [ht, hfound.unique hdenotes]

/-- What is taken comes to the one text that is checksummed for its account. -/
theorem normal_eq_ok_iff {v : Value} {account : Bytes} {t : String} (hdenotes : Denotes v account)
    (h : IsTaken v) : normal v = .ok t ↔ IsChecksummed t account := by
  rw [normal_eq_render hdenotes h, Except.ok.injEq]
  constructor
  · rintro rfl
    exact isChecksummed_render hdenotes.width
  · intro hchecked
    exact hchecked.eq_render.symm

theorem normal_render {account : Bytes} (h : account.length = width) :
    normal (.text (render account)) = .ok (render account) := by
  obtain ⟨digits, hspells⟩ := exists_spells_render h
  exact normal_eq_render (.text hspells) (.checksummed (isChecksummed_render h))

/-- A normal form is its own normal form. -/
theorem normal_of_normal {v : Value} {t : String} (h : normal v = .ok t) :
    normal (.text t) = .ok t := by
  obtain ⟨account, -, hlength, rfl⟩ := exists_denotes_of_normal h
  exact normal_render hlength

/-- Normal forms are equal exactly if they are those of one account. -/
theorem normal_eq_iff {v w : Value} {t u : String} (hv : normal v = .ok t)
    (hw : normal w = .ok u) : t = u ↔ ∃ account, Denotes v account ∧ Denotes w account := by
  obtain ⟨a, ha, halen, rfl⟩ := exists_denotes_of_normal hv
  obtain ⟨b, hb, hblen, rfl⟩ := exists_denotes_of_normal hw
  constructor
  · intro h
    obtain rfl := render_inj halen hblen h
    exact ⟨a, ha, hb⟩
  · rintro ⟨account, haccount, haccount'⟩
    rw [ha.unique haccount, hb.unique haccount']

end MetaTx.Address
