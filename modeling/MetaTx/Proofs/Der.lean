import MetaTx.Der.KeyInfo
import MetaTx.Proofs.Bytes.Number

/-!
# Writing in the distinguished encoding

An element whose content is so short that its length stands in one byte is written in one way. It is
read back from these bytes, and from no others. Of such elements are the two scalars made that a
signing service answers with.
-/

namespace MetaTx.Der

variable {tag : Tag} {bs content rest : Bytes}

/-! ## The encoding -/

/-- The content of an integer that is not negative. A zero byte in front keeps the high bit of the
first byte clear. -/
def natural (n : Nat) : Bytes :=
  let bs := Bytes.ofNumber n
  if 0x80 ≤ bs.headD 0 then 0 :: bs else bs

/-- An element with a content of less than 128 bytes. -/
def element (tag : Tag) (content : Bytes) : Bytes :=
  tag.byte :: content.length.toUInt8 :: content

def integer (n : Nat) : Bytes := element .integer (natural n)

/-- A sequence of two integers. -/
def integerPair (r s : Nat) : Bytes := element .sequence (integer r ++ integer s)

/-! ## Reading back -/

theorem toNat_length_toUInt8 (hshort : content.length < 128) :
    content.length.toUInt8.toNat = content.length := by
  rw [Nat.toUInt8_eq, UInt8.toNat_ofNat']
  exact Nat.mod_eq_of_lt (by omega)

theorem length?_short (hshort : content.length < 128) (rest : Bytes) :
    length? (content.length.toUInt8 :: rest) = some (content.length, rest) := by
  have hlow : content.length.toUInt8 < 0x80 := by
    rw [UInt8.lt_iff_toNat_lt, toNat_length_toUInt8 hshort]
    exact hshort
  rw [length?, if_pos hlow, toNat_length_toUInt8 hshort]

theorem element?_element (hshort : content.length < 128) (tag : Tag)
    (rest : Bytes) : element? tag (element tag content ++ rest) = some (content, rest) := by
  have hbehind : ¬(content ++ rest).length < content.length := by
    rw [List.length_append]
    omega
  simp only [element, List.cons_append, element?, ne_eq, not_true_eq_false, ↓reduceIte,
    length?_short hshort, hbehind, List.take_left, List.drop_left]

theorem only?_eq_some_iff :
    only? tag bs = some content ↔ element? tag bs = some (content, []) := by
  unfold only?
  split
  · next found hfound => simp [hfound]
  · next hother =>
    refine ⟨fun h => ?_, fun h => absurd h (hother content)⟩
    cases h

theorem only?_element (tag : Tag) (hshort : content.length < 128) :
    only? tag (element tag content) = some content := by
  have helement := element?_element hshort tag []
  rw [List.append_nil] at helement
  exact only?_eq_some_iff.mpr helement

theorem length_element (tag : Tag) (content : Bytes) :
    (element tag content).length = content.length + 2 := rfl

/-! ## One encoding only -/

/-- A length below 128 is read from one byte only. -/
theorem eq_cons_of_length? {n : Nat} (h : length? bs = some (n, rest)) (hshort : n < 128) :
    bs = n.toUInt8 :: rest := by
  cases bs with
  | nil => cases h
  | cons b body =>
    rw [length?] at h
    split at h
    · obtain ⟨rfl, rfl⟩ := Prod.mk.inj (Option.some.inj h)
      rw [Nat.toUInt8_eq, UInt8.ofNat_toNat]
    · dsimp only at h
      split at h
      · cases h
      · next hlong =>
        obtain ⟨rfl, -⟩ := Prod.mk.inj (Option.some.inj h)
        exact absurd hshort fun hn => hlong (.inr (.inr (.inr hn)))

/-- An element is its tag, a length and that many bytes. -/
theorem exists_length_of_element? (h : element? tag bs = some (content, rest)) :
    ∃ behind, bs = tag.byte :: behind ∧
      length? behind = some (content.length, content ++ rest) := by
  cases bs with
  | nil => cases h
  | cons b behind =>
    rw [element?] at h
    split at h
    · cases h
    · next htag =>
      split at h
      · cases h
      · next n body hlength =>
        split at h
        · cases h
        · next hbody =>
          obtain ⟨rfl, rfl⟩ := Prod.mk.inj (Option.some.inj h)
          rw [List.length_take_of_le (Nat.not_lt.mp hbody), List.take_append_drop]
          exact ⟨behind, by rw [not_not.mp htag], hlength⟩

theorem eq_element_append_of_element? (h : element? tag bs = some (content, rest))
    (hshort : content.length < 128) : bs = element tag content ++ rest := by
  obtain ⟨behind, rfl, hlength⟩ := exists_length_of_element? h
  rw [eq_cons_of_length? hlength hshort]
  rfl

theorem eq_element_of_only? (h : only? tag bs = some content) (hshort : content.length < 128) :
    bs = element tag content := by
  rw [eq_element_append_of_element? (only?_eq_some_iff.mp h) hshort, List.append_nil]

/-! ## Scalars -/

/-- The first byte of a number is not zero, unless it is all there is. -/
theorem exists_ofNumber_eq_cons (n : Nat) :
    ∃ b rest, Bytes.ofNumber n = b :: rest ∧ (b = 0 → rest = []) ∧ Bytes.toNat (b :: rest) = n := by
  unfold Bytes.ofNumber
  split
  · next hzero => exact ⟨0, [], rfl, fun _ => rfl, hzero.symm⟩
  · next hpos =>
    have hread := Bytes.toNat_minimal n
    have hhead := Bytes.head?_minimal_ne_zero n
    cases hbs : Bytes.minimal n with
    | nil =>
      rw [hbs] at hread
      exact absurd hread.symm hpos
    | cons b rest =>
      rw [hbs] at hread hhead
      refine ⟨b, rest, rfl, fun hb => ?_, hread⟩
      rw [hb] at hhead
      exact absurd rfl hhead

theorem natural?_natural (n : Nat) : natural? (natural n) = some n := by
  obtain ⟨b, rest, hbs, hzero, hread⟩ := exists_ofNumber_eq_cons n
  simp only [natural, hbs, List.headD_cons]
  split
  -- The byte in front keeps the number.
  · next hhigh =>
    have hnlow : ¬b < 0x80 := UInt8.not_lt.mpr hhigh
    have hfront : Bytes.toNat (0 :: b :: rest) = Bytes.toNat (b :: rest) := by simp [Bytes.toNat]
    have hfirst : ¬(0x80 : UInt8) ≤ 0 := by decide
    rw [natural?, if_neg (by simp [hfirst, hnlow]), hfront, hread]
  · next hhigh =>
    have hlow : b < 0x80 := UInt8.not_le.mp hhigh
    cases rest with
    | nil =>
      rw [natural?, if_pos hlow, ← hread]
      simp [Bytes.toNat]
    | cons c rest =>
      have hb : b ≠ 0 := fun hb => List.cons_ne_nil c rest (hzero hb)
      rw [natural?, if_neg (by simp [hhigh, hb]), hread]

theorem length_natural_le {n width : Nat} (h : n < Bytes.limit width) :
    (natural n).length ≤ width + 2 := by
  have hminimal : (Bytes.ofNumber n).length ≤ width + 1 := by
    unfold Bytes.ofNumber
    split
    · simp
    · rw [Bytes.length_minimal]
      have := Bytes.widthOf_le h
      omega
  simp only [natural]
  split
  · rw [List.length_cons]
    omega
  · omega

theorem length_integer (n : Nat) : (integer n).length = (natural n).length + 2 := rfl

theorem integer?_integer {n : Nat} (h : n < Bytes.limit 32) (rest : Bytes) :
    integer? (integer n ++ rest) = some (n, rest) := by
  have hlen := length_natural_le h
  have helement := element?_element (show (natural n).length < 128 by omega) .integer rest
  rw [integer?, integer, helement, Option.bind_eq_bind, Option.bind_some]
  dsimp only
  rw [natural?_natural]
  rfl

/-- Two scalars of 256 bits read back. -/
theorem signature_integerPair {r s : Nat} (hr : r < Bytes.limit 32) (hs : s < Bytes.limit 32) :
    signature (integerPair r s) = .ok (r, s) := by
  have hrlen := length_natural_le hr
  have hslen := length_natural_le hs
  have hshort : (integer r ++ integer s).length < 128 := by
    rw [List.length_append, length_integer, length_integer]
    omega
  have honly : only? .sequence (integerPair r s) = some (integer r ++ integer s) :=
    only?_element .sequence hshort
  have hlast := integer?_integer hs []
  rw [List.append_nil] at hlast
  have hpair : integerPair? (integerPair r s) = some (r, s) := by
    rw [integerPair?, honly, Option.bind_eq_bind, Option.bind_some, integer?_integer hr,
      Option.bind_eq_bind, Option.bind_some]
    dsimp only
    rw [hlast]
    rfl
  rw [signature, hpair]

end MetaTx.Der
