import MetaTx.Proofs.Rlp.Size
import MetaTx.Proofs.Transaction.Layout

/-!
# Reading sent transactions

What whoever receives a transaction reads in its bytes: the fields, the chain, and a signature
whose recovery id is told by `v` in the legacy layout and by a parity in the other. The reader is
strict, down to leading zeros of numbers and the widths of addresses and keys. From what was read
the hash that was signed is made again. Fields that leave room for a signature among the lengths that
eight bytes can count are always read back.
-/

namespace MetaTx

open Rlp (Item)

/-! ## The reader -/

/-- What is read in the bytes of a sent transaction. -/
structure SentRecord where
  fields : TransactionFields
  chainId : Nat
  parity : Nat
  r : Nat
  s : Nat

namespace SentRecord

def number? : Item → Option Nat
  | .bytes bs => if bs.head? = some 0 then none else some (Bytes.toNat bs)
  | .list _ => none

def key? : Item → Option Nat
  | .bytes bs => if bs.length = 32 then some (Bytes.toNat bs) else none
  | .list _ => none

def recipient? : Item → Option Bytes
  | .bytes bs => if bs = [] ∨ bs.length = 20 then some bs else none
  | .list _ => none

def entry? : Item → Option (Bytes × List Nat)
  | .list [.bytes address, .list keys] =>
    if address.length = 20 then (keys.mapM key?).map fun ns => (address, ns) else none
  | _ => none

/-- Reads the legacy layout, whose `v` is 35, twice the chain id, and the recovery id. -/
def ofLegacy? : Item → Option SentRecord
  | .list [nonce, gasPrice, gas, recipient, value, .bytes data, v, r, s] => do
    let fields : LegacyFields := ⟨← number? nonce, ← number? gasPrice, ← number? gas,
      ← recipient? recipient, ← number? value, data⟩
    let v ← number? v
    if v < 35 then none
    else return ⟨.legacy fields, (v - 35) / 2, (v - 35) % 2, ← number? r, ← number? s⟩
  | _ => none

/-- Reads the dynamic fee layout. -/
def ofDynamicFee? : Item → Option SentRecord
  | .list [chainId, nonce, maxPriorityFee, maxFee, gas, recipient, value, .bytes data,
      .list entries, parity, r, s] => do
    let chainId ← number? chainId
    let fields : DynamicFeeFields := ⟨← number? nonce, ← number? maxPriorityFee, ← number? maxFee,
      ← number? gas, ← recipient? recipient, ← number? value, data, ← entries.mapM entry?⟩
    let parity ← number? parity
    if 2 ≤ parity then none
    else return ⟨.dynamicFee fields, chainId, parity, ← number? r, ← number? s⟩
  | _ => none

/-- Reads the bytes of a sent transaction. The type in front tells the layout. -/
def ofRaw? : Bytes → Option SentRecord
  | [] => none
  | b :: bs =>
    if b = 0x02 then (Rlp.decode? bs).bind ofDynamicFee?
    else (Rlp.decode? (b :: bs)).bind ofLegacy?

end SentRecord

namespace TransactionFields

/-- The items that are laid out for a signature on a chain. -/
def signedItems (chainId : Nat) : TransactionFields → List Item
  | .legacy fields => fields.items ++ [.ofNat chainId, .ofNat 0, .ofNat 0]
  | .dynamicFee fields => fields.items chainId

/-- Eight bytes can count what the fields weigh on a chain, and 128 bytes more for a signature. -/
def Fits (fields : TransactionFields) (chainId : Nat) : Prop :=
  Rlp.weightAll (fields.signedItems chainId) + 128 < Bytes.limit 8

/-- The bytes that are hashed for a signature on a chain. -/
def preimage (chainId : Nat) : TransactionFields → Bytes
  | .legacy fields => Rlp.encode (.list (fields.items ++ [.ofNat chainId, .ofNat 0, .ofNat 0]))
  | .dynamicFee fields => 0x02 :: Rlp.encode (.list (fields.items chainId))

/-- The hash that is signed on a chain. -/
def signingHash (fields : TransactionFields) (chainId : Nat) : Bytes :=
  keccak (fields.preimage chainId)

/-- The bytes that are sent. -/
def raw (chainId parity r s : Nat) : TransactionFields → Bytes
  | .legacy fields => Rlp.encode (.list (fields.items ++
      [.ofNat (parity + chainId * 2 + 35), .ofNat r, .ofNat s]))
  | .dynamicFee fields => 0x02 :: Rlp.encode (.list (fields.items chainId ++
      [.ofNat parity, .ofNat r, .ofNat s]))

end TransactionFields

namespace SentRecord

/-- The signature that was read, in the raw convention. -/
def signature (record : SentRecord) : Signature := ⟨record.r, record.s, record.parity⟩

/-- The hash that was signed, from what was read. -/
def signingHash (record : SentRecord) : Bytes := record.fields.signingHash record.chainId

/-! ## Reading back -/

@[simp] theorem number?_ofNat (n : Nat) : number? (.ofNat n) = some n := by
  simp only [Item.ofNat, number?, Bytes.head?_minimal_ne_zero, Bytes.toNat_minimal, ↓reduceIte]

theorem key?_ofNat {n : Nat} (h : n < Bytes.limit 32) :
    key? (.bytes (Bytes.ofNat 32 n)) = some n := by
  rw [key?, if_pos (Bytes.length_ofNat 32 n), Bytes.toNat_ofNat h]

theorem recipient?_of_width {bs : Bytes} (h : bs = [] ∨ bs.length = Address.width) :
    recipient? (.bytes bs) = some bs :=
  if_pos h

theorem entry?_accessEntryItem {plain : Bytes × List Nat} (h : IsSizedEntry plain) :
    entry? (accessEntryItem plain) = some plain := by
  have hkeys := Option.mapM_eq_some_of_forall (f := key?) (g := fun n => .bytes (Bytes.ofNat 32 n))
    fun n hn => key?_ofNat (h.2 n hn)
  have hwidth : plain.1.length = 20 := h.1
  simp only [accessEntryItem, entry?, hwidth, hkeys, ↓reduceIte]
  rfl

theorem ofLegacy?_items {fields : LegacyFields} {chainId parity r s : Nat}
    (h : (TransactionFields.legacy fields).IsSized) (hparity : parity < 2) :
    ofLegacy? (.list (fields.items ++ [.ofNat (parity + chainId * 2 + 35), .ofNat r, .ofNat s])) =
      some ⟨.legacy fields, chainId, parity, r, s⟩ := by
  have hlow : ¬parity + chainId * 2 + 35 < 35 := by omega
  have hchain : (parity + chainId * 2 + 35 - 35) / 2 = chainId := by omega
  have hodd : (parity + chainId * 2 + 35 - 35) % 2 = parity := by omega
  simp only [LegacyFields.items, List.cons_append, List.nil_append, ofLegacy?, number?_ofNat,
    recipient?_of_width h, Option.bind_eq_bind, Option.bind_some, hlow, hchain, hodd, ↓reduceIte]
  rfl

theorem ofDynamicFee?_items {fields : DynamicFeeFields} {chainId parity r s : Nat}
    (h : (TransactionFields.dynamicFee fields).IsSized) (hparity : parity < 2) :
    ofDynamicFee? (.list (fields.items chainId ++ [.ofNat parity, .ofNat r, .ofNat s])) =
      some ⟨.dynamicFee fields, chainId, parity, r, s⟩ := by
  have hlow : ¬2 ≤ parity := by omega
  have hentries := Option.mapM_eq_some_of_forall fun plain hplain =>
    entry?_accessEntryItem (h.2 plain hplain)
  simp only [DynamicFeeFields.items, List.cons_append, List.nil_append, ofDynamicFee?,
    number?_ofNat, recipient?_of_width h.1, hentries, Option.bind_eq_bind, Option.bind_some, hlow,
    ↓reduceIte]
  rfl

end SentRecord

/-! ## Lengths -/

/-- Recovery ids are below 27, whatever `v` is. -/
theorem TransactionFields.Fits.length_raw_lt {fields : TransactionFields} {chainId id r s : Nat}
    (h : fields.Fits chainId) (hid : id < 27) (hr : r < Bytes.limit 32) (hs : s < Bytes.limit 32) :
    (fields.raw chainId id r s).length < Bytes.limit 8 := by
  have hrwidth := Bytes.widthOf_le hr
  have hswidth := Bytes.widthOf_le hs
  cases fields with
  | legacy fields =>
    -- The chain id has a byte more at most once it is folded.
    have hv : Bytes.widthOf (id + chainId * 2 + 35) ≤ Bytes.widthOf chainId + 1 := by
      apply Bytes.widthOf_le
      have hchain := Bytes.lt_limit_widthOf chainId
      rw [Bytes.limit_succ]
      omega
    have hweight : (Item.list (fields.items ++
        [.ofNat (id + chainId * 2 + 35), .ofNat r, .ofNat s])).weight < Bytes.limit 8 := by
      simp only [Fits, signedItems, Item.weight, Rlp.weightAll_append, Rlp.weightAll,
        Rlp.weight_ofNat] at h ⊢
      omega
    exact Nat.lt_of_le_of_lt (Rlp.length_encode_le _ hweight) hweight
  | dynamicFee fields =>
    have hwidth : Bytes.widthOf id ≤ 1 := Bytes.widthOf_le (Nat.lt_trans hid (by decide))
    have hweight : (Item.list (fields.items chainId ++
        [.ofNat id, .ofNat r, .ofNat s])).weight + 1 < Bytes.limit 8 := by
      simp only [Fits, signedItems, Item.weight, Rlp.weightAll_append, Rlp.weightAll,
        Rlp.weight_ofNat] at h ⊢
      omega
    have hlen := Rlp.length_encode_le _ (Nat.lt_of_succ_lt hweight)
    rw [raw, List.length_cons]
    omega

namespace SentRecord

/-- What is sent reads back, if eight bytes can count its bytes. -/
theorem ofRaw?_raw {fields : TransactionFields} {chainId parity r s : Nat} (h : fields.IsSized)
    (hparity : parity < 2) (hfit : (fields.raw chainId parity r s).length < Bytes.limit 8) :
    ofRaw? (fields.raw chainId parity r s) = some ⟨fields, chainId, parity, r, s⟩ := by
  cases fields with
  | legacy fields =>
    simp only [TransactionFields.raw] at hfit ⊢
    obtain ⟨b, bs, hraw, hb⟩ :=
      Rlp.encode_list_eq_cons (Nat.lt_of_le_of_lt (Rlp.length_encodeAll_le _) hfit)
    -- A list starts with no type.
    have hne : b ≠ 0x02 := by
      rintro rfl
      exact absurd hb (by decide)
    have hread := Rlp.decode?_encode hfit
    rw [hraw] at hread ⊢
    rw [ofRaw?, if_neg hne, hread]
    exact ofLegacy?_items h hparity
  | dynamicFee fields =>
    simp only [TransactionFields.raw, List.length_cons] at hfit ⊢
    rw [ofRaw?, if_pos rfl, Rlp.decode?_encode (by omega)]
    exact ofDynamicFee?_items h hparity

end SentRecord

end MetaTx
