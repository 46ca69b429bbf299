import MetaTx.Proofs.Transaction.Sending

/-!
# Transactions are told by their hashed bytes

What is hashed for a transaction is the list of its fields, with a type in front for one of the
two shapes. The list reads back, and so does every number, key and entry in it. So the bytes tell
the shape and all fields, in the only way in which fields can be compared: an address may be given
in several ways, and is the same if its bytes are.
-/

namespace MetaTx

open Rlp (Item)

/-! ## The same transaction -/

/-- Two values stand for the same address, or both for none. -/
def Transaction.SameAddress (a b : Value) : Prop :=
  ∃ bs, addressBytes a = .ok bs ∧ addressBytes b = .ok bs

structure AccessEntry.Same (a b : AccessEntry) : Prop where
  address : Transaction.SameAddress a.address b.address
  keys : a.keys = b.keys

structure LegacyTransaction.Same (a b : LegacyTransaction) : Prop where
  nonce : a.nonce = b.nonce
  gasPrice : a.gasPrice = b.gasPrice
  gas : a.gas = b.gas
  recipient : Transaction.SameAddress a.recipient b.recipient
  value : a.value = b.value
  data : a.data = b.data
  chainId : a.chainId = b.chainId

structure DynamicFeeTransaction.Same (a b : DynamicFeeTransaction) : Prop where
  nonce : a.nonce = b.nonce
  maxFee : a.maxFee = b.maxFee
  maxPriorityFee : a.maxPriorityFee = b.maxPriorityFee
  gas : a.gas = b.gas
  recipient : Transaction.SameAddress a.recipient b.recipient
  value : a.value = b.value
  data : a.data = b.data
  chainId : a.chainId = b.chainId
  accessList : List.Forall₂ AccessEntry.Same a.accessList b.accessList

/-- Two transactions have the same shape and agree in each field. -/
inductive Transaction.Same : Transaction → Transaction → Prop
  | legacy {a b : LegacyTransaction} (h : a.Same b) : Same (.legacy a) (.legacy b)
  | dynamicFee {a b : DynamicFeeTransaction} (h : a.Same b) : Same (.dynamicFee a) (.dynamicFee b)

/-! ### From plain fields -/

theorem AccessEntry.Holds.same {a b : AccessEntry} {plain : Bytes × List Nat} (ha : a.Holds plain)
    (hb : b.Holds plain) : a.Same b where
  address := ⟨plain.1, ha.address, hb.address⟩
  keys := by rw [(Transaction.keys_eq_map ha.keys).1, (Transaction.keys_eq_map hb.keys).1]

theorem forall₂_same_of_holds {as bs : List AccessEntry} {plains : List (Bytes × List Nat)}
    (ha : List.Forall₂ AccessEntry.Holds as plains)
    (hb : List.Forall₂ AccessEntry.Holds bs plains) : List.Forall₂ AccessEntry.Same as bs := by
  induction ha generalizing bs with
  | nil =>
    cases hb
    exact .nil
  | cons ha _ ih =>
    cases hb with
    | cons hb hrest => exact .cons (ha.same hb) (ih hrest)

theorem Transaction.Holds.same {a b : Transaction} {fields : TransactionFields} (ha : a.Holds fields)
    (hb : b.Holds fields) (hchain : a.chainId = b.chainId) : a.Same b := by
  cases ha with
  | legacy ha =>
    cases hb with
    | legacy hb => exact .legacy {
        nonce := by rw [ha.nonce, hb.nonce]
        gasPrice := by rw [ha.gasPrice, hb.gasPrice]
        gas := by rw [ha.gas, hb.gas]
        recipient := ⟨_, ha.recipient, hb.recipient⟩
        value := by rw [ha.value, hb.value]
        data := by rw [ha.data, hb.data]
        chainId := hchain }
  | dynamicFee ha =>
    cases hb with
    | dynamicFee hb => exact .dynamicFee {
        nonce := by rw [ha.nonce, hb.nonce]
        maxFee := by rw [ha.maxFee, hb.maxFee]
        maxPriorityFee := by rw [ha.maxPriorityFee, hb.maxPriorityFee]
        gas := by rw [ha.gas, hb.gas]
        recipient := ⟨_, ha.recipient, hb.recipient⟩
        value := by rw [ha.value, hb.value]
        data := by rw [ha.data, hb.data]
        chainId := hchain
        accessList := forall₂_same_of_holds ha.accessList hb.accessList }

/-! ## What is laid out -/

/-- Lengths in front of content have at most eight bytes: whether the content of an item is short
enough to be written. -/
def Rlp.Item.Fits : Item → Prop
  | .bytes bs => bs.length < Bytes.limit 8
  | .list items => (encodeAll items).length < Bytes.limit 8

namespace Transaction

/-- What is laid out for a signature. -/
def signedItem : Transaction → Except Error Item
  | legacy tx => legacyItem tx [tx.chainId, .int 0, .int 0]
  | dynamicFee tx => dynamicFeeItem tx []

/-- Whether what is laid out for a signature is short enough to be written. -/
def Fits (tx : Transaction) : Prop := ∀ item, tx.signedItem = .ok item → item.Fits

variable {tx : Transaction}

theorem signedItem_eq {fields : TransactionFields} {chainId : Nat} (h : tx.Holds fields)
    (hchain : tx.chainId = .int chainId) :
    tx.signedItem = .ok (.list (fields.signedItems chainId)) := by
  cases h with
  | @legacy tx fields h =>
    change tx.chainId = .int chainId at hchain
    rw [signedItem, hchain]
    exact legacyItem_eq h [chainId, 0, 0]
  | @dynamicFee tx fields h =>
    have hitem := dynamicFeeItem_eq h hchain []
    rwa [List.map_nil, List.map_nil, List.append_nil] at hitem

theorem exists_signedItem_of_preimage {bs : Bytes} (h : tx.preimage = .ok bs) :
    ∃ item, tx.signedItem = .ok item := by
  unfold preimage at h
  split at h
  · cases h
  · cases tx <;>
    · obtain ⟨item, hitem, -⟩ := Except.bind_eq_ok_iff.mp h
      exact ⟨item, hitem⟩

theorem exists_holds_of_signedItem {item : Item} (h : tx.signedItem = .ok item) :
    ∃ fields, tx.Holds fields := by
  cases tx with
  | legacy tx =>
    obtain ⟨fields, hfields⟩ := exists_holds_of_legacyItem h
    exact ⟨.legacy fields, .legacy hfields⟩
  | dynamicFee tx =>
    obtain ⟨fields, hfields⟩ := exists_holds_of_dynamicFeeItem h
    exact ⟨.dynamicFee fields, .dynamicFee hfields⟩

theorem exists_chainId_of_signedItem {item : Item} (h : tx.signedItem = .ok item) :
    ∃ chainId : Nat, tx.chainId = .int chainId := by
  cases tx with
  | legacy tx => exact exists_last_of_legacyItem h tx.chainId (by simp)
  | dynamicFee tx => exact (exists_last_of_dynamicFeeItem h).1

/-- A transaction whose bytes are hashed holds plain fields on a chain, and the bytes are those of
the fields. -/
theorem exists_fields_of_preimage {bs : Bytes} (h : tx.preimage = .ok bs) :
    ∃ fields, ∃ chainId : Nat, tx.Holds fields ∧ tx.chainId = .int chainId ∧
      bs = fields.preimage chainId := by
  obtain ⟨item, hitem⟩ := exists_signedItem_of_preimage h
  obtain ⟨fields, hfields⟩ := exists_holds_of_signedItem hitem
  obtain ⟨chainId, hchain⟩ := exists_chainId_of_signedItem hitem
  have hbs := preimage_eq hfields hchain
  rw [h] at hbs
  injection hbs with hbs
  exact ⟨fields, chainId, hfields, hchain, hbs⟩

end Transaction

/-! ## Items tell fields -/

@[simp] theorem Rlp.Item.ofNat_inj {m n : Nat} : Item.ofNat m = Item.ofNat n ↔ m = n := by
  refine ⟨fun h => ?_, congrArg _⟩
  have hread := SentRecord.number?_ofNat m
  rw [h, SentRecord.number?_ofNat] at hread
  exact (Option.some.inj hread).symm

theorem accessEntryItems_inj {plains plains' : List (Bytes × List Nat)}
    (hsized : ∀ plain ∈ plains, IsSizedEntry plain) (hsized' : ∀ plain ∈ plains', IsSizedEntry plain)
    (h : plains.map accessEntryItem = plains'.map accessEntryItem) : plains = plains' := by
  have hread := Option.mapM_eq_some_of_forall fun plain hplain =>
    SentRecord.entry?_accessEntryItem (hsized plain hplain)
  rw [h, Option.mapM_eq_some_of_forall fun plain hplain =>
    SentRecord.entry?_accessEntryItem (hsized' plain hplain)] at hread
  exact (Option.some.inj hread).symm

theorem LegacyFields.signedItems_inj {fields fields' : LegacyFields} {chainId chainId' : Nat}
    (h : (TransactionFields.legacy fields).signedItems chainId =
      (TransactionFields.legacy fields').signedItems chainId') :
    fields = fields' ∧ chainId = chainId' := by
  simp only [TransactionFields.signedItems, items, List.cons_append, List.nil_append,
    List.cons.injEq, Item.ofNat_inj, Item.bytes.injEq, and_true] at h
  obtain ⟨hnonce, hgasPrice, hgas, hrecipient, hvalue, hdata, hchain⟩ := h
  cases fields
  cases fields'
  dsimp only at hnonce hgasPrice hgas hrecipient hvalue hdata
  subst hnonce hgasPrice hgas hrecipient hvalue hdata
  exact ⟨rfl, hchain⟩

theorem DynamicFeeFields.signedItems_inj {fields fields' : DynamicFeeFields} {chainId chainId' : Nat}
    (hsized : (TransactionFields.dynamicFee fields).IsSized)
    (hsized' : (TransactionFields.dynamicFee fields').IsSized)
    (h : (TransactionFields.dynamicFee fields).signedItems chainId =
      (TransactionFields.dynamicFee fields').signedItems chainId') :
    fields = fields' ∧ chainId = chainId' := by
  simp only [TransactionFields.signedItems, items, List.cons.injEq, Item.ofNat_inj,
    Item.bytes.injEq, Item.list.injEq, and_true] at h
  obtain ⟨hchain, hnonce, hmaxPriorityFee, hmaxFee, hgas, hrecipient, hvalue, hdata, hitems⟩ := h
  have hentries := accessEntryItems_inj hsized.2 hsized'.2 hitems
  cases fields
  cases fields'
  dsimp only at hnonce hmaxPriorityFee hmaxFee hgas hrecipient hvalue hdata hentries
  subst hnonce hmaxPriorityFee hmaxFee hgas hrecipient hvalue hdata hentries
  exact ⟨rfl, hchain⟩

namespace TransactionFields

variable {fields fields' : TransactionFields} {chainId chainId' : Nat}

/-- What is hashed starts with the type of the shape, or as a list. -/
theorem preimage_eq_cons (hfit : (Item.list (fields.signedItems chainId)).Fits) :
    ∃ b bs, fields.preimage chainId = b :: bs ∧ (b = 0x02 ∨ 192 ≤ b.toNat) := by
  cases fields with
  | legacy fields =>
    obtain ⟨b, bs, hbs, hb⟩ := Rlp.encode_list_eq_cons hfit
    exact ⟨b, bs, hbs, .inr hb⟩
  | dynamicFee fields => exact ⟨_, _, rfl, .inl rfl⟩

/-- No list starts with the type of the other shape. -/
theorem preimage_legacy_ne {fields : LegacyFields} {fields' : DynamicFeeFields}
    (hfit : (Item.list ((legacy fields).signedItems chainId)).Fits) :
    (legacy fields).preimage chainId ≠ (dynamicFee fields').preimage chainId' := by
  intro h
  obtain ⟨b, bs, hbs, hb⟩ := Rlp.encode_list_eq_cons hfit
  have hcons : b :: bs = (dynamicFee fields').preimage chainId' := hbs.symm.trans h
  have hhead : b = 0x02 := (List.cons.inj hcons).1
  rw [hhead] at hb
  exact absurd hb (by decide)

theorem preimage_inj (hsized : fields.IsSized) (hsized' : fields'.IsSized)
    (hfit : (Item.list (fields.signedItems chainId)).Fits)
    (hfit' : (Item.list (fields'.signedItems chainId')).Fits)
    (h : fields.preimage chainId = fields'.preimage chainId') :
    fields = fields' ∧ chainId = chainId' := by
  -- Lists of one shape read back item by item. The first byte tells the shapes apart.
  cases fields with
  | legacy fields =>
    cases fields' with
    | legacy fields' =>
      have hitems := Rlp.encode_list_inj hfit hfit' h
      obtain ⟨rfl, hchain⟩ := LegacyFields.signedItems_inj hitems
      exact ⟨rfl, hchain⟩
    | dynamicFee fields' => exact absurd h (preimage_legacy_ne hfit)
  | dynamicFee fields =>
    cases fields' with
    | legacy fields' => exact absurd h.symm (preimage_legacy_ne hfit')
    | dynamicFee fields' =>
      have hitems := Rlp.encode_list_inj hfit hfit' (List.cons.inj h).2
      obtain ⟨rfl, hchain⟩ := DynamicFeeFields.signedItems_inj hsized hsized' hitems
      exact ⟨rfl, hchain⟩

end TransactionFields

/-- Two transactions whose hashed bytes are equal are the same. -/
theorem Transaction.same_of_preimage_eq {a b : Transaction} {bs : Bytes}
    (ha : a.preimage = .ok bs) (hb : b.preimage = .ok bs) (hfit : a.Fits) (hfit' : b.Fits) :
    a.Same b := by
  obtain ⟨fields, chainId, hfields, hchain, hbs⟩ := exists_fields_of_preimage ha
  obtain ⟨fields', chainId', hfields', hchain', hbs'⟩ := exists_fields_of_preimage hb
  obtain ⟨rfl, rfl⟩ := TransactionFields.preimage_inj hfields.isSized hfields'.isSized
    (hfit _ (signedItem_eq hfields hchain)) (hfit' _ (signedItem_eq hfields' hchain'))
    (hbs.symm.trans hbs')
  exact hfields.same hfields' (hchain.trans hchain'.symm)

end MetaTx
