import MetaTx.Key.Private
import MetaTx.Proofs.Bytes.Base58

/-!
# Private keys are read back

The bytes of a private key give the key again, and so does its checked form, with its mark or
without. What follows the mark cannot be taken for another mark, because the mark has a dash in it
and base 58 has none.
-/

namespace MetaTx.PrivateKey

theorem length_toBytes (key : PrivateKey) : key.toBytes.length = width := Bytes.length_ofNat _ _

theorem toNat_toBytes (key : PrivateKey) : Bytes.toNat key.toBytes = key.scalar :=
  Bytes.toNat_ofNat (Nat.lt_trans key.lt_order (by decide))

theorem ofScalar?_scalar (key : PrivateKey) : ofScalar? key.scalar = some key :=
  dif_pos ⟨key.pos, key.lt_order⟩

theorem ofBytes_toBytes (key : PrivateKey) : ofBytes key.toBytes = .ok key := by
  simp only [ofBytes, if_pos key.length_toBytes, key.toNat_toBytes, key.ofScalar?_scalar]

theorem ofBytes_eq_ok_iff {raw : Bytes} {key : PrivateKey} :
    ofBytes raw = .ok key ↔ raw = key.toBytes := by
  constructor
  · intro h
    unfold ofBytes at h
    split at h
    · next hlen =>
      unfold ofScalar? at h
      split at h
      · next hkey =>
        split at hkey
        · next hrange =>
          obtain rfl := Except.ok.inj h
          obtain rfl := Option.some.inj hkey
          rw [toBytes, ← hlen, Bytes.ofNat_toNat]
        · cases hkey
      · cases h
    · cases h
  · rintro rfl
    exact ofBytes_toBytes key

/-! ## The checked form -/

/-- A key in the checked form, without its mark. -/
def unmarked (key : PrivateKey) : String := Base58.encodeChecked key.toBytes

theorem toChecked_eq (key : PrivateKey) : key.toChecked = checkedMark ++ key.unmarked := rfl

theorem dropCheckedMark_toChecked (key : PrivateKey) :
    dropCheckedMark key.toChecked = key.unmarked := by
  have hlist : key.toChecked.toList = checkedMark.toList ++ key.unmarked.toList := by
    rw [toChecked_eq, String.toList_append]
  have hmark : checkedMark.toList.isPrefixOf key.toChecked.toList = true := by
    rw [List.isPrefixOf_iff_prefix, hlist]
    exact List.prefix_append _ _
  have hlen : checkedMark.length = checkedMark.toList.length := rfl
  rw [dropCheckedMark, if_pos hmark, hlist, hlen, List.drop_left, String.ofList_toList]

theorem dropCheckedMark_unmarked (key : PrivateKey) :
    dropCheckedMark key.unmarked = key.unmarked := by
  refine if_neg fun hmark => ?_
  rw [List.isPrefixOf_iff_prefix] at hmark
  have hdash : '-' ∈ Base58.alphabet :=
    Base58.mem_alphabet_of_mem_encodeChecked '-' (hmark.subset (by decide))
  exact absurd hdash (by decide)

theorem ofChecked_eq_of_dropCheckedMark {key : PrivateKey} {s : String}
    (h : dropCheckedMark s = key.unmarked) : ofChecked s = .ok key := by
  rw [ofChecked, h, unmarked, Base58.decodeChecked_encodeChecked]
  exact ofBytes_toBytes key

theorem ofChecked_toChecked (key : PrivateKey) : ofChecked key.toChecked = .ok key :=
  ofChecked_eq_of_dropCheckedMark key.dropCheckedMark_toChecked

theorem ofChecked_unmarked (key : PrivateKey) : ofChecked key.unmarked = .ok key :=
  ofChecked_eq_of_dropCheckedMark key.dropCheckedMark_unmarked

/-! ## A sample -/

theorem one_lt_order : 1 < Secp256k1.n := by decide

/-- The key of the generator. -/
def one : PrivateKey := ⟨1, Nat.one_pos, one_lt_order⟩

end MetaTx.PrivateKey
