import MetaTx.Proofs.Rlp.Reader

/-!
# How long encoded trees are

In front of a string or a list stand at most nine bytes, as long as eight bytes can count what is in
it. So a tree has no more bytes than it weighs, where every string weighs its bytes and nine more, and
every list what is in it and nine more. The weight is told by the tree alone, and it bounds all
lengths that are written for the tree.
-/

namespace MetaTx.Rlp

mutual

/-- The bytes of all strings in a tree, and nine for each string and each list. -/
def Item.weight : Item → Nat
  | .bytes bs => 9 + bs.length
  | .list items => 9 + weightAll items

def weightAll : List Item → Nat
  | [] => 0
  | item :: rest => item.weight + weightAll rest

end

theorem weight_ofNat (n : Nat) : (Item.ofNat n).weight = 9 + Bytes.widthOf n := by
  rw [Item.ofNat, Item.weight, Bytes.length_minimal]

theorem weightAll_append (items items' : List Item) :
    weightAll (items ++ items') = weightAll items + weightAll items' := by
  induction items with
  | nil => rw [List.nil_append, weightAll, Nat.zero_add]
  | cons item items ih => rw [List.cons_append, weightAll, weightAll, ih, Nat.add_assoc]

theorem length_header_le (mark : Nat) {n : Nat} (h : n < Bytes.limit 8) :
    (header mark n).length ≤ 9 := by
  unfold header
  split
  · exact Nat.le_add_left 1 8
  · have hwidth := Bytes.widthOf_le h
    rw [List.length_cons, Bytes.length_minimal]
    omega

theorem length_encodeBytes_le {bs : Bytes} (h : bs.length < Bytes.limit 8) :
    (encodeBytes bs).length ≤ 9 + bs.length := by
  unfold encodeBytes
  split
  · exact Nat.le_add_left _ _
  · have hheader := length_header_le stringMark h
    rw [List.length_append]
    omega

mutual

/-- A tree has no more bytes than it weighs. -/
theorem length_encode_le (item : Item) (h : item.weight < Bytes.limit 8) :
    (encode item).length ≤ item.weight := by
  cases item with
  | bytes bs =>
    rw [Item.weight] at h ⊢
    rw [encode]
    exact length_encodeBytes_le (by omega)
  | list items =>
    rw [Item.weight] at h ⊢
    have hpayload := length_encodeAll_le_weight items (by omega)
    have hheader := length_header_le listMark (n := (encodeAll items).length) (by omega)
    simp only [encode, List.length_append]
    omega

theorem length_encodeAll_le_weight (items : List Item) (h : weightAll items < Bytes.limit 8) :
    (encodeAll items).length ≤ weightAll items := by
  cases items with
  | nil => exact Nat.le_refl 0
  | cons item rest =>
    rw [weightAll] at h ⊢
    have hfirst := length_encode_le item (by omega)
    have hrest := length_encodeAll_le_weight rest (by omega)
    rw [encodeAll, List.length_append]
    omega

end

end MetaTx.Rlp
