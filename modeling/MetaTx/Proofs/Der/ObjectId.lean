import Mathlib.Data.Nat.Digits.Defs
import MetaTx.Der.ObjectId

/-!
# An object identifier has one encoding

The bytes from which an identifier is read are those that it is written as. A place whose reading
has begun stands for the bytes that are already read of it, so bytes and numbers stay in step along
the reading.
-/

namespace MetaTx.Der.ObjectId

/-! ## Writing -/

/-- The digits of base 128 with their high bit set, as few as a number has. -/
def digits (n : Nat) : Bytes := ((Nat.digits 128 n).map fun d => (d + 0x80).toUInt8).reverse

/-- The number of a place: of its digits the last alone has its high bit clear. -/
def place (n : Nat) : Bytes := digits (n / 0x80) ++ [(n % 0x80).toUInt8]

/-- The content of an identifier. -/
def content : ObjectId → Bytes
  | first :: second :: rest => place (40 * first + second) ++ rest.flatMap place
  | _ => []

/-! ## Reading -/

theorem digits_zero : digits 0 = [] := by
  rw [digits, Nat.digits_zero]
  rfl

/-- One more digit, unless it is a needless zero. -/
theorem digits_concat {n : Nat} {b : UInt8} (hhigh : 0x80 ≤ b.toNat) (h : n ≠ 0 ∨ b.toNat ≠ 0x80) :
    digits (n * 0x80 + (b.toNat - 0x80)) = digits n ++ [b] := by
  have hb := b.toNat_lt
  have hdigits : Nat.digits 128 (b.toNat - 0x80 + 128 * n) =
      (b.toNat - 0x80) :: Nat.digits 128 n :=
    Nat.digits_add 128 (by omega) _ _ (by omega) (by omega)
  rw [digits, show n * 0x80 + (b.toNat - 0x80) = b.toNat - 0x80 + 128 * n by omega, hdigits,
    List.map_cons, List.reverse_cons, Nat.sub_add_cancel hhigh, Nat.toUInt8_eq, UInt8.ofNat_toNat]
  rfl

theorem place_concat {n : Nat} {b : UInt8} (hlow : b.toNat < 0x80) :
    place (n * 0x80 + b.toNat) = digits n ++ [b] := by
  rw [place, show (n * 0x80 + b.toNat) / 0x80 = n by omega,
    show (n * 0x80 + b.toNat) % 0x80 = b.toNat by omega, Nat.toUInt8_eq, UInt8.ofNat_toNat]

/-- The digits that are read of the first place stand in front of the bytes to come. -/
theorem flatMap_place_of_places? {n : Nat} {bs : Bytes} {ns : List Nat}
    (h : places? n bs = some ns) : digits n ++ bs = ns.flatMap place := by
  induction bs generalizing n ns with
  | nil =>
    rw [places?] at h
    split at h
    · next hn =>
      obtain rfl := Option.some.inj h
      rw [hn, digits_zero]
      rfl
    · cases h
  | cons b rest ih =>
    rw [places?] at h
    split at h
    · cases h
    · next hneeded =>
      split at h
      · next hlow =>
        obtain ⟨others, hothers, rfl⟩ := Option.map_eq_some_iff.mp h
        have hrest := ih hothers
        rw [digits_zero, List.nil_append] at hrest
        rw [List.flatMap_cons, place_concat (UInt8.lt_iff_toNat_lt.mp hlow), ← hrest,
          List.append_assoc]
        rfl
      · next hlow =>
        have hhigh : 0x80 ≤ b.toNat := UInt8.le_iff_toNat_le.mp (UInt8.not_lt.mp hlow)
        have hdigit : n ≠ 0 ∨ b.toNat ≠ 0x80 := by
          rw [← not_and_or]
          exact fun hzero => hneeded ⟨hzero.1, UInt8.toNat_inj.mp hzero.2⟩
        rw [← ih h, digits_concat hhigh hdigit, List.append_assoc]
        rfl

/-- The place that the first two numbers share can be told from them. -/
theorem content_firstTwo_append (n : Nat) (rest : List Nat) :
    content (firstTwo n ++ rest) = place n ++ rest.flatMap place := by
  unfold firstTwo
  split
  · show place (40 * (n / 40) + n % 40) ++ rest.flatMap place = _
    rw [Nat.div_add_mod]
  · show place (40 * 2 + (n - 80)) ++ rest.flatMap place = _
    rw [show 40 * 2 + (n - 80) = n by omega]

theorem eq_content_of_ofContent? {bs : Bytes} {id : ObjectId} (h : ofContent? bs = some id) :
    bs = id.content := by
  unfold ofContent? at h
  split at h
  · cases h
  · split at h
    · next n rest hplaces =>
      split at h
      · obtain rfl := Option.some.inj h
        have hbytes := flatMap_place_of_places? hplaces
        rw [digits_zero, List.nil_append] at hbytes
        rw [content_firstTwo_append, hbytes, List.flatMap_cons]
      · cases h
    · cases h

end MetaTx.Der.ObjectId
