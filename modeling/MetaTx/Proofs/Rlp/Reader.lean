import MetaTx.Proofs.Bytes.Number
import MetaTx.Rlp

/-!
# Reading recursive length prefixes

A strict reader of trees of byte strings. It refuses what no tree is written as: a mark in front
of a byte that stands for itself, a long form of a short length, a length with a leading zero,
and content that is cut off. Every tree whose bytes eight bytes can count reads back.
-/

namespace MetaTx.Rlp

/-! ## The reader -/

/-- What stands at the start of a byte string, with what follows it. -/
inductive Piece
  | bytes (content rest : Bytes)
  | list (content rest : Bytes)

namespace Piece

def rest : Piece → Bytes
  | bytes _ rest | list _ rest => rest

end Piece

/-- The first bytes of a byte string, and the rest. -/
def cut? (n : Nat) (bs : Bytes) : Option (Bytes × Bytes) :=
  if n ≤ bs.length then some (bs.take n, bs.drop n) else none

/-- What stands behind a mark, and the rest. The length is told by the mark or by the bytes
behind it. -/
def sized? (code : Nat) (bs : Bytes) : Option (Bytes × Bytes) :=
  if code ≤ 55 then cut? code bs
  else do
    let (digits, rest) ← cut? (code - 55) bs
    let length := Bytes.toNat digits
    if digits.head? = some 0 ∨ length ≤ 55 then none else cut? length rest

/-- Whether a byte string is a byte that stands for itself. -/
def standsAlone (bs : Bytes) : Bool :=
  match bs with
  | [b] => b.toNat < 128
  | _ => false

/-- What stands at the start of a byte string. -/
def next? : Bytes → Option Piece
  | [] => none
  | b :: bs =>
    if b.toNat < 128 then some (.bytes [b] bs)
    else if b.toNat < 192 then do
      let (content, rest) ← sized? (b.toNat - 128) bs
      if standsAlone content then none else some (.bytes content rest)
    else do
      let (content, rest) ← sized? (b.toNat - 192) bs
      some (.list content rest)

theorem length_cut? {n : Nat} {bs content rest : Bytes} (h : cut? n bs = some (content, rest)) :
    content.length + rest.length = bs.length := by
  unfold cut? at h
  split at h
  · next hle =>
    obtain ⟨rfl, rfl⟩ := Prod.mk.inj (Option.some.inj h)
    rw [List.length_take, List.length_drop]
    omega
  · cases h

theorem length_sized? {code : Nat} {bs content rest : Bytes}
    (h : sized? code bs = some (content, rest)) : content.length + rest.length ≤ bs.length := by
  unfold sized? at h
  split at h
  · exact Nat.le_of_eq (length_cut? h)
  · obtain ⟨⟨digits, behind⟩, hdigits, h⟩ := Option.bind_eq_some_iff.mp h
    have hlen := length_cut? hdigits
    dsimp only at h
    split at h
    · cases h
    · have := length_cut? h
      omega

/-- What follows a piece is shorter, and so is the content of a list. -/
theorem length_next? {bs : Bytes} {piece : Piece} (h : next? bs = some piece) :
    piece.rest.length < bs.length ∧
      ∀ content rest, piece = .list content rest → content.length < bs.length := by
  cases bs with
  | nil => cases h
  | cons b bs =>
    rw [next?] at h
    split at h
    · cases h
      exact ⟨Nat.lt_succ_self _, by rintro _ _ ⟨⟩⟩
    · split at h
      · obtain ⟨⟨content, rest⟩, hsized, h⟩ := Option.bind_eq_some_iff.mp h
        have hlen := length_sized? hsized
        dsimp only at h
        split at h
        · cases h
        · cases h
          refine ⟨?_, by rintro _ _ ⟨⟩⟩
          simp only [Piece.rest, List.length_cons]
          omega
      · obtain ⟨⟨content, rest⟩, hsized, h⟩ := Option.bind_eq_some_iff.mp h
        have hlen := length_sized? hsized
        cases h
        simp only [Piece.rest, List.length_cons]
        refine ⟨by omega, ?_⟩
        rintro _ _ ⟨⟩
        omega

/-- Reads items up to the end of a byte string. -/
def items? (bs : Bytes) : Option (List Item) :=
  if bs.isEmpty then some []
  else
    match h : next? bs with
    | none => none
    | some (.bytes content rest) =>
      have := (length_next? h).1
      (items? rest).map fun items => .bytes content :: items
    | some (.list content rest) =>
      have := (length_next? h).1
      have := (length_next? h).2 content rest rfl
      (items? content).bind fun inner => (items? rest).map fun items => .list inner :: items
termination_by bs.length

theorem items?_nil : items? [] = some [] := by
  rw [items?]
  rfl

theorem items?_of_bytes {bs content rest : Bytes} (h : next? bs = some (.bytes content rest)) :
    items? bs = (items? rest).map fun items => .bytes content :: items := by
  cases bs with
  | nil => cases h
  | cons b bs =>
    rw [items?]
    simp only [List.isEmpty_cons, Bool.false_eq_true, ↓reduceIte]
    split
    · next hnone => rw [h] at hnone; cases hnone
    · next hsome => rw [h] at hsome; cases hsome; rfl
    · next hsome => rw [h] at hsome; cases hsome

theorem items?_of_list {bs content rest : Bytes} (h : next? bs = some (.list content rest)) :
    items? bs =
      (items? content).bind fun inner => (items? rest).map fun items => .list inner :: items := by
  cases bs with
  | nil => cases h
  | cons b bs =>
    rw [items?]
    simp only [List.isEmpty_cons, Bool.false_eq_true, ↓reduceIte]
    split
    · next hnone => rw [h] at hnone; cases hnone
    · next hsome => rw [h] at hsome; cases hsome
    · next hsome => rw [h] at hsome; cases hsome; rfl

/-- Reads one item. -/
def decode? (bs : Bytes) : Option Item :=
  match items? bs with
  | some [item] => some item
  | _ => none

/-! ## Reading back -/

theorem cut?_append {content : Bytes} {n : Nat} (h : content.length = n) (rest : Bytes) :
    cut? n (content ++ rest) = some (content, rest) := by
  have hle : n ≤ (content ++ rest).length := by
    rw [List.length_append]
    omega
  rw [cut?, if_pos hle, List.take_left' h, List.drop_left' h]

/-- A header is a mark with a code of six bits, and the length in front of the content is told by
the code and what stands behind the mark. -/
theorem header_eq (mark : Nat) {n : Nat} (hfit : n < Bytes.limit 8) :
    ∃ code digits, code < 64 ∧ header mark n = (mark + code).toUInt8 :: digits ∧
      ∀ content rest, content.length = n →
        sized? code (digits ++ (content ++ rest)) = some (content, rest) := by
  by_cases hshort : n ≤ 55
  -- The code is the length itself.
  · refine ⟨n, [], by omega, if_pos hshort, fun content rest hlen => ?_⟩
    rw [sized?, if_pos hshort]
    exact cut?_append hlen rest
  · have hwidth := Bytes.widthOf_le hfit
    have hlen := Bytes.length_minimal n
    have hpos : 0 < Bytes.widthOf n := by
      have := Bytes.lt_limit_widthOf n
      rcases Nat.eq_zero_or_pos (Bytes.widthOf n) with h0 | hpos
      · rw [h0] at this
        change n < 1 at this
        omega
      · exact hpos
    -- The code tells how many bytes the length has, and they have no leading zero.
    refine ⟨55 + Bytes.widthOf n, Bytes.minimal n, by omega, ?_, fun content rest hcontent => ?_⟩
    · simp only [header, maxShort, hshort, hlen, Nat.add_assoc, ↓reduceIte]
    · have hcode : ¬55 + Bytes.widthOf n ≤ 55 := by omega
      have hcut : cut? (55 + Bytes.widthOf n - 55) (Bytes.minimal n ++ (content ++ rest)) =
          some (Bytes.minimal n, content ++ rest) := cut?_append (by omega) _
      rw [sized?, if_neg hcode, hcut]
      simp only [Option.bind_eq_bind, Option.bind_some, Bytes.head?_minimal_ne_zero,
        Bytes.toNat_minimal, false_or, hshort, ↓reduceIte]
      exact cut?_append hcontent rest

theorem toNat_toUInt8_of_lt {n : Nat} (h : n < 256) : n.toUInt8.toNat = n := by
  rw [Nat.toUInt8_eq, UInt8.toNat_ofNat']
  exact Nat.mod_eq_of_lt h

theorem standsAlone_eq_isBare (bs : Bytes) : standsAlone bs = isBare bs := by
  rcases bs with _ | ⟨b, _ | ⟨c, bs⟩⟩ <;> rfl

theorem next?_encodeBytes {bs : Bytes} (hfit : bs.length < Bytes.limit 8) (rest : Bytes) :
    next? (encodeBytes bs ++ rest) = some (.bytes bs rest) := by
  unfold encodeBytes
  split
  · next hbare =>
    unfold isBare at hbare
    split at hbare
    · next b =>
      have hlow : b.toNat < 128 := of_decide_eq_true hbare
      rw [List.singleton_append, next?, if_pos hlow]
    · cases hbare
  · next hbare =>
    obtain ⟨code, digits, hcode, hheader, hsized⟩ := header_eq stringMark hfit
    have hmark : (stringMark + code).toUInt8.toNat = 128 + code :=
      toNat_toUInt8_of_lt (by change 128 + code < 256; omega)
    have hlow : ¬128 + code < 128 := by omega
    have hhigh : 128 + code < 192 := by omega
    rw [hheader, List.append_assoc, List.cons_append, next?, hmark, if_neg hlow, if_pos hhigh,
      Nat.add_sub_cancel_left, hsized bs rest rfl]
    simp [standsAlone_eq_isBare, hbare]

theorem next?_encode_list {items : List Item} (hfit : (encodeAll items).length < Bytes.limit 8)
    (rest : Bytes) :
    next? (encode (.list items) ++ rest) = some (.list (encodeAll items) rest) := by
  obtain ⟨code, digits, hcode, hheader, hsized⟩ := header_eq listMark hfit
  have hmark : (listMark + code).toUInt8.toNat = 192 + code :=
    toNat_toUInt8_of_lt (by change 192 + code < 256; omega)
  have hlow : ¬192 + code < 128 := by omega
  have hhigh : ¬192 + code < 192 := by omega
  simp only [encode, hheader]
  rw [List.append_assoc, List.cons_append, next?, hmark, if_neg hlow, if_neg hhigh,
    Nat.add_sub_cancel_left, hsized _ rest rfl]
  rfl

theorem length_encodeAll_le (items : List Item) :
    (encodeAll items).length ≤ (encode (.list items)).length := by
  simp only [encode, List.length_append]
  exact Nat.le_add_left _ _

/-- A list starts with the mark of one. -/
theorem encode_list_eq_cons {items : List Item} (hfit : (encodeAll items).length < Bytes.limit 8) :
    ∃ b bs, encode (.list items) = b :: bs ∧ 192 ≤ b.toNat := by
  obtain ⟨code, digits, hcode, hheader, -⟩ := header_eq listMark hfit
  have hmark : (listMark + code).toUInt8.toNat = 192 + code :=
    toNat_toUInt8_of_lt (by change 192 + code < 256; omega)
  refine ⟨_, digits ++ encodeAll items, ?_, by rw [hmark]; omega⟩
  simp only [encode, hheader, List.cons_append]

theorem length_le_encodeBytes (bs : Bytes) : bs.length ≤ (encodeBytes bs).length := by
  unfold encodeBytes
  split
  · exact Nat.le_refl _
  · rw [List.length_append]
    exact Nat.le_add_left _ _

/-- Items read back, if eight bytes can count all of their bytes. -/
theorem items?_encodeAll : (items : List Item) → (encodeAll items).length < Bytes.limit 8 →
    items? (encodeAll items) = some items
  | [], _ => by rw [encodeAll, items?_nil]
  | .bytes bs :: rest, hfit => by
    rw [encodeAll, encode, List.length_append] at hfit
    have hlen := length_le_encodeBytes bs
    have ih := items?_encodeAll rest (by omega)
    rw [encodeAll, encode, items?_of_bytes (next?_encodeBytes (by omega) _), ih]
    rfl
  | .list inner :: rest, hfit => by
    have hlen := length_encodeAll_le inner
    rw [encodeAll, List.length_append] at hfit
    have ihInner := items?_encodeAll inner (by omega)
    have ih := items?_encodeAll rest (by omega)
    rw [encodeAll, items?_of_list (next?_encode_list (by omega) _), ihInner, ih]
    rfl

/-- A tree reads back, if eight bytes can count its bytes. -/
theorem decode?_encode {item : Item} (hfit : (encode item).length < Bytes.limit 8) :
    decode? (encode item) = some item := by
  have hall : encodeAll [item] = encode item := by
    rw [encodeAll, encodeAll, List.append_nil]
  have hread := items?_encodeAll [item] (by rw [hall]; exact hfit)
  rw [hall] at hread
  rw [decode?, hread]

/-- A list is told by its bytes, if eight bytes can count what is in it. -/
theorem encode_list_inj {items items' : List Item}
    (hfit : (encodeAll items).length < Bytes.limit 8)
    (hfit' : (encodeAll items').length < Bytes.limit 8)
    (h : encode (.list items) = encode (.list items')) : items = items' := by
  have hnext := next?_encode_list hfit []
  have hnext' := next?_encode_list hfit' []
  rw [h, hnext'] at hnext
  injection hnext with hpiece
  injection hpiece with hall
  have hread := items?_encodeAll items hfit
  rw [← hall, items?_encodeAll items' hfit'] at hread
  exact (Option.some.inj hread).symm

end MetaTx.Rlp
