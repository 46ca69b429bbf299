import MetaTx.Proofs.Address
import MetaTx.Proofs.Except
import MetaTx.Transaction

/-!
# Fields of transactions

The fields of a transaction as plain numbers and byte strings, and when a transaction holds such
fields. A transaction that does can be laid out in either of its layouts, and one that does not
can be laid out in none of them. What refuses it then is an encoding error, unless an address is
given as something that is read in no way, or as an integer with too many digits.
-/

namespace MetaTx

/-! ## Plain fields -/

/-- The fields of a legacy transaction without its chain. -/
structure LegacyFields where
  nonce : Nat
  gasPrice : Nat
  gas : Nat
  recipient : Bytes
  value : Nat
  data : Bytes

/-- The fields of a dynamic fee transaction without its chain. -/
structure DynamicFeeFields where
  nonce : Nat
  maxPriorityFee : Nat
  maxFee : Nat
  gas : Nat
  recipient : Bytes
  value : Nat
  data : Bytes
  accessList : List (Bytes × List Nat)

/-- The fields of a transaction of either shape. -/
inductive TransactionFields
  | legacy (fields : LegacyFields)
  | dynamicFee (fields : DynamicFeeFields)

/-- An address with its storage keys holds an address of 20 bytes and numbers of 256 bits. -/
structure AccessEntry.Holds (entry : AccessEntry) (plain : Bytes × List Nat) : Prop where
  address : Transaction.addressBytes entry.address = .ok plain.1
  width : plain.1.length = Address.width
  keys : List.Forall₂ (fun (key : Value) (n : Nat) => key = .int n ∧ n < Bytes.limit 32)
    entry.keys plain.2

structure LegacyTransaction.Holds (tx : LegacyTransaction) (fields : LegacyFields) : Prop where
  nonce : tx.nonce = .int fields.nonce
  gasPrice : tx.gasPrice = .int fields.gasPrice
  gas : tx.gas = .int fields.gas
  recipient : Transaction.addressBytes tx.recipient = .ok fields.recipient
  value : tx.value = .int fields.value
  data : tx.data = .bytes fields.data

structure DynamicFeeTransaction.Holds (tx : DynamicFeeTransaction) (fields : DynamicFeeFields) :
    Prop where
  nonce : tx.nonce = .int fields.nonce
  maxPriorityFee : tx.maxPriorityFee = .int fields.maxPriorityFee
  maxFee : tx.maxFee = .int fields.maxFee
  gas : tx.gas = .int fields.gas
  recipient : Transaction.addressBytes tx.recipient = .ok fields.recipient
  value : tx.value = .int fields.value
  data : tx.data = .bytes fields.data
  accessList : List.Forall₂ AccessEntry.Holds tx.accessList fields.accessList

namespace Transaction

/-- The fields of a transaction are accepted as plain ones. -/
inductive Holds : Transaction → TransactionFields → Prop
  | legacy {tx : LegacyTransaction} {fields : LegacyFields} (h : tx.Holds fields) :
      Holds (.legacy tx) (.legacy fields)
  | dynamicFee {tx : DynamicFeeTransaction} {fields : DynamicFeeFields} (h : tx.Holds fields) :
      Holds (.dynamicFee tx) (.dynamicFee fields)

/-- Whether an address is given as something that is read in some way, and can be told. -/
def isReadable : Value → Bool
  | .float _ | .list _ | .map _ => false
  | .int n => Text.isWritable n
  | .null | .bool _ | .text _ | .bytes _ => true

/-- Whether all addresses of a transaction are given as something that is read in some way. -/
def readsAddresses : Transaction → Bool
  | legacy tx => isReadable tx.recipient
  | dynamicFee tx =>
    isReadable tx.recipient && tx.accessList.all fun entry => isReadable entry.address

end Transaction

/-! ## Items -/

open Rlp (Item)

/-- The fields of a legacy transaction as items, in their order. -/
def LegacyFields.items (fields : LegacyFields) : List Item := [
  .ofNat fields.nonce, .ofNat fields.gasPrice, .ofNat fields.gas, .bytes fields.recipient,
  .ofNat fields.value, .bytes fields.data]

/-- An address with its storage keys as an item. -/
def accessEntryItem (plain : Bytes × List Nat) : Item :=
  .list [.bytes plain.1, .list (plain.2.map fun n => .bytes (Bytes.ofNat 32 n))]

/-- The chain and fields of a dynamic fee transaction as items, in their order. -/
def DynamicFeeFields.items (fields : DynamicFeeFields) (chainId : Nat) : List Item := [
  .ofNat chainId, .ofNat fields.nonce, .ofNat fields.maxPriorityFee, .ofNat fields.maxFee,
  .ofNat fields.gas, .bytes fields.recipient, .ofNat fields.value, .bytes fields.data,
  .list (fields.accessList.map accessEntryItem)]

/-- The width of an address with its storage keys. -/
def IsSizedEntry (plain : Bytes × List Nat) : Prop :=
  plain.1.length = Address.width ∧ ∀ n ∈ plain.2, n < Bytes.limit 32

/-- A recipient is no bytes or an address, and the access list has addresses and 256 bits. -/
def TransactionFields.IsSized : TransactionFields → Prop
  | .legacy fields => fields.recipient = [] ∨ fields.recipient.length = Address.width
  | .dynamicFee fields =>
    (fields.recipient = [] ∨ fields.recipient.length = Address.width) ∧
      ∀ plain ∈ fields.accessList, IsSizedEntry plain

namespace Transaction

/-! ## Single fields -/

theorem number_natCast (n : Nat) : number (.int n) = .ok (.ofNat n) := by
  rw [number, if_pos (Int.natCast_nonneg n), Int.toNat_natCast]

theorem number_eq_ok {v : Value} {item : Item} (h : number v = .ok item) :
    ∃ n : Nat, v = .int n := by
  unfold number at h
  split at h
  · next n =>
    split at h
    · next hn => exact ⟨n.toNat, by rw [Int.toNat_of_nonneg hn]⟩
    · cases h
  · cases h

theorem binary_eq_ok {v : Value} {item : Item} (h : binary v = .ok item) :
    ∃ bs, v = .bytes bs := by
  unfold binary at h
  split at h
  · next bs => exact ⟨bs, rfl⟩
  · cases h

theorem storageKey_natCast {n : Nat} (h : n < Bytes.limit 32) :
    storageKey (.int n) = .ok (.bytes (Bytes.ofNat 32 n)) := by
  have hn : (0 : Int) ≤ n ∧ (n : Int) < Bytes.limit keyWidth :=
    ⟨Int.natCast_nonneg n, Int.ofNat_lt.mpr h⟩
  rw [storageKey, if_pos hn, Int.toNat_natCast]
  rfl

theorem storageKey_eq_ok {v : Value} {item : Item} (h : storageKey v = .ok item) :
    ∃ n : Nat, v = .int n ∧ n < Bytes.limit 32 := by
  unfold storageKey at h
  split at h
  · next n =>
    split at h
    · next hn =>
      have hlt : n < Bytes.limit 32 := hn.2
      exact ⟨n.toNat, by rw [Int.toNat_of_nonneg hn.1], by omega⟩
    · cases h
  · cases h

/-- An address is no bytes or 20. -/
theorem length_of_addressBytes {v : Value} {bs : Bytes} (h : addressBytes v = .ok bs) :
    bs = [] ∨ bs.length = Address.width := by
  unfold addressBytes at h
  split at h
  · cases h
    exact .inl rfl
  · next =>
    cases hread : Address.ofValue v with
    | error e => rw [hread] at h; cases h
    | ok found =>
      rw [hread] at h
      cases h
      exact .inr (Address.length_of_ofValue hread)

/-- An address that is refused is refused as one, if it is read in some way and can be told. -/
theorem addressBytes_eq_error {v : Value} {e : Error} (h : addressBytes v = .error e)
    (hread : isReadable v = true) : e = .encoding .address := by
  cases v with
  | null => cases h
  | float _ | list _ | map _ => cases hread
  | bool b => cases h; rfl
  | int n =>
    have htold : (Error.encoding .address).telling (.int n) = .encoding .address := if_pos hread
    simp only [addressBytes, Address.ofValue] at h
    split at h
    · cases h; exact htold
    · cases hdigits : Address.ofText? (Hex.ofNat n.toNat) with
      | none => rw [hdigits] at h; cases h; exact htold
      | some bs => rw [hdigits] at h; cases h
  | text s =>
    simp only [addressBytes, Address.ofValue] at h
    cases hdigits : Address.ofText? s with
    | none => rw [hdigits] at h; cases h; rfl
    | some bs => rw [hdigits] at h; cases h
  | bytes bs =>
    simp only [addressBytes, Address.ofValue] at h
    split at h
    · cases h
    · cases h; rfl

theorem number_eq_error {v : Value} {e : Error} (h : number v = .error e) : e = misfit := by
  unfold number at h
  split at h
  · split at h <;> cases h
    rfl
  · cases h
    rfl

theorem binary_eq_error {v : Value} {e : Error} (h : binary v = .error e) : e = misfit := by
  unfold binary at h
  split at h <;> cases h
  rfl

theorem storageKey_eq_error {v : Value} {e : Error} (h : storageKey v = .error e) :
    e = misfit := by
  unfold storageKey at h
  split at h
  · split at h <;> cases h
    rfl
  · cases h
    rfl

theorem accessItem_eq_error {entry : Bytes × List Value} {e : Error}
    (h : accessItem entry = .error e) : e = misfit := by
  unfold accessItem at h
  split at h
  · cases h
    rfl
  · obtain ⟨key, -, hkey⟩ := Except.exists_mem_of_mapM_eq_error (Except.eq_error_of_bind_pure h)
    exact storageKey_eq_error hkey

/-! ## Lists of fields -/

theorem mapM_number (ns : List Nat) :
    (ns.map fun n : Nat => Value.int n).mapM number = .ok (ns.map .ofNat) := by
  rw [Except.mapM_eq_ok_iff, List.forall₂_map_left_iff, List.forall₂_map_right_iff,
    List.forall₂_same]
  exact fun n _ => number_natCast n

theorem keys_eq_map {keys : List Value} {ns : List Nat}
    (h : List.Forall₂ (fun (key : Value) (n : Nat) => key = .int n ∧ n < Bytes.limit 32) keys ns) :
    keys = ns.map (fun n : Nat => Value.int n) ∧ ∀ n ∈ ns, n < Bytes.limit 32 := by
  induction h with
  | nil => exact ⟨rfl, by simp⟩
  | cons hkey _ ih =>
    obtain ⟨rfl, hlt⟩ := hkey
    obtain ⟨rfl, hall⟩ := ih
    exact ⟨rfl, List.forall_mem_cons.mpr ⟨hlt, hall⟩⟩

theorem exists_keys {keys : List Value} {items : List Item}
    (h : List.Forall₂ (fun key item => storageKey key = .ok item) keys items) :
    ∃ ns : List Nat, List.Forall₂ (fun (key : Value) (n : Nat) =>
      key = .int n ∧ n < Bytes.limit 32) keys ns := by
  induction h with
  | nil => exact ⟨[], .nil⟩
  | cons hkey _ ih =>
    obtain ⟨n, hn⟩ := storageKey_eq_ok hkey
    obtain ⟨ns, hns⟩ := ih
    exact ⟨n :: ns, .cons hn hns⟩

end Transaction

end MetaTx
