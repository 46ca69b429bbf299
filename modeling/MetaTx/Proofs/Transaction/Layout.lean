import MetaTx.Proofs.Error
import MetaTx.Proofs.Transaction.Fields

/-!
# Layouts of transactions

A transaction is laid out if and only if it holds plain fields, and its layout is then told by
these fields alone. What is laid out behind the fields are numbers that are not negative.
-/

namespace MetaTx

open Rlp (Item)

/-! ## Access lists -/

theorem AccessEntry.Holds.isSized {entry : AccessEntry} {plain : Bytes × List Nat}
    (h : entry.Holds plain) : IsSizedEntry plain :=
  ⟨h.width, (Transaction.keys_eq_map h.keys).2⟩

theorem isSizedEntry_of_holds {entries : List AccessEntry} {plains : List (Bytes × List Nat)}
    (h : List.Forall₂ AccessEntry.Holds entries plains) : ∀ plain ∈ plains, IsSizedEntry plain := by
  induction h with
  | nil => simp
  | cons hentry _ ih => exact List.forall_mem_cons.mpr ⟨hentry.isSized, ih⟩

namespace Transaction

/-- An address with its storage keys as values. -/
def keyValues (plain : Bytes × List Nat) : Bytes × List Value :=
  (plain.1, plain.2.map fun n : Nat => .int n)

theorem readAccessList_eq {entries : List AccessEntry} {plains : List (Bytes × List Nat)}
    (h : List.Forall₂ AccessEntry.Holds entries plains) :
    readAccessList entries = .ok (plains.map keyValues) := by
  rw [readAccessList, Except.mapM_eq_ok_iff, List.forall₂_map_right_iff]
  refine h.imp fun entry plain hentry => ?_
  rw [hentry.address, (keys_eq_map hentry.keys).1]
  rfl

theorem accessItem_keyValues {plain : Bytes × List Nat} (h : IsSizedEntry plain) :
    accessItem (keyValues plain) = .ok (accessEntryItem plain) := by
  have hkeys : (plain.2.map fun n : Nat => Value.int n).mapM storageKey =
      .ok (plain.2.map fun n => .bytes (Bytes.ofNat 32 n)) := by
    rw [Except.mapM_eq_ok_iff, List.forall₂_map_left_iff, List.forall₂_map_right_iff,
      List.forall₂_same]
    exact fun n hn => storageKey_natCast (h.2 n hn)
  have hwidth : ¬plain.1.length ≠ Address.width := not_not_intro h.1
  simp only [accessItem, keyValues, if_neg hwidth, hkeys]
  rfl

theorem mapM_accessItem {plains : List (Bytes × List Nat)}
    (h : ∀ plain ∈ plains, IsSizedEntry plain) :
    (plains.map keyValues).mapM accessItem = .ok (plains.map accessEntryItem) := by
  rw [Except.mapM_eq_ok_iff, List.forall₂_map_left_iff, List.forall₂_map_right_iff,
    List.forall₂_same]
  exact fun plain hplain => accessItem_keyValues (h plain hplain)

/-- An access list that is read and laid out holds plain entries. -/
theorem exists_holds_of_accessItems {entries : List AccessEntry}
    {found : List (Bytes × List Value)} {items : List Item}
    (hread : readAccessList entries = .ok found) (hitems : found.mapM accessItem = .ok items) :
    ∃ plains, List.Forall₂ AccessEntry.Holds entries plains := by
  rw [readAccessList, Except.mapM_eq_ok_iff] at hread
  rw [Except.mapM_eq_ok_iff] at hitems
  induction hread generalizing items with
  | nil => exact ⟨[], .nil⟩
  | @cons entry pair entries found hentry _ ih =>
    obtain ⟨item, rest, hitem, hrest, rfl⟩ := List.forall₂_cons_left_iff.mp hitems
    obtain ⟨plains, hplains⟩ := ih hrest
    obtain ⟨address, haddress, hpair⟩ := Except.bind_eq_ok_iff.mp hentry
    cases hpair
    unfold accessItem at hitem
    split at hitem
    · cases hitem
    · next hwidth =>
      obtain ⟨keyItems, hkeys, -⟩ := Except.bind_eq_ok_iff.mp hitem
      have hkeys := Except.mapM_eq_ok_iff.mp hkeys
      obtain ⟨ns, hns⟩ := exists_keys hkeys
      exact ⟨(address, ns) :: plains, .cons ⟨haddress, not_not.mp hwidth, hns⟩ hplains⟩

/-! ## Whole transactions -/

theorem legacyItem_eq {tx : LegacyTransaction} {fields : LegacyFields} (h : tx.Holds fields)
    (last : List Nat) :
    legacyItem tx (last.map fun n : Nat => .int n) =
      .ok (.list (fields.items ++ last.map .ofNat)) := by
  have hfront := mapM_number [fields.nonce, fields.gasPrice, fields.gas]
  simp only [List.map_cons, List.map_nil] at hfront
  simp only [legacyItem, h.nonce, h.gasPrice, h.gas, h.recipient, h.value, h.data, hfront,
    number_natCast, mapM_number]
  rfl

theorem dynamicFeeItem_eq {tx : DynamicFeeTransaction} {fields : DynamicFeeFields}
    (h : tx.Holds fields) {chainId : Nat} (hchain : tx.chainId = .int chainId) (last : List Nat) :
    dynamicFeeItem tx (last.map fun n : Nat => .int n) =
      .ok (.list (fields.items chainId ++ last.map .ofNat)) := by
  have hfront := mapM_number
    [chainId, fields.nonce, fields.maxPriorityFee, fields.maxFee, fields.gas]
  simp only [List.map_cons, List.map_nil] at hfront
  have hsized : ∀ plain ∈ fields.accessList, IsSizedEntry plain :=
    isSizedEntry_of_holds h.accessList
  simp only [dynamicFeeItem, hchain, h.nonce, h.maxPriorityFee, h.maxFee, h.gas, h.recipient,
    h.value, h.data, hfront, number_natCast, mapM_number, readAccessList_eq h.accessList,
    Except.ok_bind, mapM_accessItem hsized]
  rfl

theorem mapM_number_eq_ok {vs : List Value} {items : List Item} (h : vs.mapM number = .ok items) :
    ∀ v ∈ vs, ∃ n : Nat, v = .int n := by
  intro v hv
  obtain ⟨item, hitem⟩ := Except.exists_of_mapM_eq_ok h v hv
  exact number_eq_ok hitem

/-- What is laid out behind the fields of a legacy transaction are numbers. -/
theorem exists_last_of_legacyItem {tx : LegacyTransaction} {last : List Value} {item : Item}
    (h : legacyItem tx last = .ok item) : ∀ v ∈ last, ∃ n : Nat, v = .int n := by
  obtain ⟨recipient, -, h⟩ := Except.bind_eq_ok_iff.mp h
  obtain ⟨front, -, h⟩ := Except.bind_eq_ok_iff.mp h
  obtain ⟨value, -, h⟩ := Except.bind_eq_ok_iff.mp h
  obtain ⟨data, -, h⟩ := Except.bind_eq_ok_iff.mp h
  obtain ⟨numbers, hlast, -⟩ := Except.bind_eq_ok_iff.mp h
  exact mapM_number_eq_ok hlast

/-- So are those behind the fields of a dynamic fee transaction, and its chain. -/
theorem exists_last_of_dynamicFeeItem {tx : DynamicFeeTransaction} {last : List Value}
    {item : Item} (h : dynamicFeeItem tx last = .ok item) :
    (∃ chainId : Nat, tx.chainId = .int chainId) ∧ ∀ v ∈ last, ∃ n : Nat, v = .int n := by
  obtain ⟨recipient, -, h⟩ := Except.bind_eq_ok_iff.mp h
  obtain ⟨accessList, -, h⟩ := Except.bind_eq_ok_iff.mp h
  obtain ⟨front, hfront, h⟩ := Except.bind_eq_ok_iff.mp h
  obtain ⟨value, -, h⟩ := Except.bind_eq_ok_iff.mp h
  obtain ⟨data, -, h⟩ := Except.bind_eq_ok_iff.mp h
  obtain ⟨entries, -, h⟩ := Except.bind_eq_ok_iff.mp h
  obtain ⟨numbers, hlast, -⟩ := Except.bind_eq_ok_iff.mp h
  exact ⟨mapM_number_eq_ok hfront tx.chainId (by simp), mapM_number_eq_ok hlast⟩

/-- A legacy transaction that is laid out holds plain fields. -/
theorem exists_holds_of_legacyItem {tx : LegacyTransaction} {last : List Value} {item : Item}
    (h : legacyItem tx last = .ok item) : ∃ fields, tx.Holds fields := by
  obtain ⟨recipient, hrecipient, h⟩ := Except.bind_eq_ok_iff.mp h
  obtain ⟨front, hfront, h⟩ := Except.bind_eq_ok_iff.mp h
  obtain ⟨value, hvalue, h⟩ := Except.bind_eq_ok_iff.mp h
  obtain ⟨data, hdata, -⟩ := Except.bind_eq_ok_iff.mp h
  have hnumbers := mapM_number_eq_ok hfront
  obtain ⟨nonce, hnonce⟩ := hnumbers tx.nonce (by simp)
  obtain ⟨gasPrice, hgasPrice⟩ := hnumbers tx.gasPrice (by simp)
  obtain ⟨gas, hgas⟩ := hnumbers tx.gas (by simp)
  obtain ⟨value, hvalue⟩ := number_eq_ok hvalue
  obtain ⟨data, hdata⟩ := binary_eq_ok hdata
  exact ⟨⟨nonce, gasPrice, gas, recipient, value, data⟩,
    ⟨hnonce, hgasPrice, hgas, hrecipient, hvalue, hdata⟩⟩

/-- A dynamic fee transaction that is laid out holds plain fields. -/
theorem exists_holds_of_dynamicFeeItem {tx : DynamicFeeTransaction} {last : List Value}
    {item : Item} (h : dynamicFeeItem tx last = .ok item) : ∃ fields, tx.Holds fields := by
  obtain ⟨recipient, hrecipient, h⟩ := Except.bind_eq_ok_iff.mp h
  obtain ⟨found, hread, h⟩ := Except.bind_eq_ok_iff.mp h
  obtain ⟨front, hfront, h⟩ := Except.bind_eq_ok_iff.mp h
  obtain ⟨value, hvalue, h⟩ := Except.bind_eq_ok_iff.mp h
  obtain ⟨data, hdata, h⟩ := Except.bind_eq_ok_iff.mp h
  obtain ⟨entries, hentries, -⟩ := Except.bind_eq_ok_iff.mp h
  have hnumbers := mapM_number_eq_ok hfront
  obtain ⟨nonce, hnonce⟩ := hnumbers tx.nonce (by simp)
  obtain ⟨maxPriorityFee, hmaxPriorityFee⟩ := hnumbers tx.maxPriorityFee (by simp)
  obtain ⟨maxFee, hmaxFee⟩ := hnumbers tx.maxFee (by simp)
  obtain ⟨gas, hgas⟩ := hnumbers tx.gas (by simp)
  obtain ⟨value, hvalue⟩ := number_eq_ok hvalue
  obtain ⟨data, hdata⟩ := binary_eq_ok hdata
  obtain ⟨accessList, haccessList⟩ := exists_holds_of_accessItems hread hentries
  exact ⟨⟨nonce, maxPriorityFee, maxFee, gas, recipient, value, data, accessList⟩,
    ⟨hnonce, hmaxPriorityFee, hmaxFee, hgas, hrecipient, hvalue, hdata, haccessList⟩⟩

/-! ## Refusals -/

theorem isA_encoding_of_eq_misfit {e : Error} (h : e = misfit) : e.isA .encoding = true := by
  rw [h]
  exact Error.isA_encoding .rlp

theorem isA_encoding_of_addressBytes {v : Value} {e : Error} (h : addressBytes v = .error e)
    (hread : isReadable v = true) : e.isA .encoding = true := by
  rw [addressBytes_eq_error h hread]
  exact Error.isA_encoding .address

theorem isA_encoding_of_numbers {vs : List Value} {e : Error} (h : vs.mapM number = .error e) :
    e.isA .encoding = true := by
  obtain ⟨v, -, hv⟩ := Except.exists_mem_of_mapM_eq_error h
  exact isA_encoding_of_eq_misfit (number_eq_error hv)

theorem isA_encoding_of_accessList {entries : List AccessEntry} {e : Error}
    (h : readAccessList entries = .error e)
    (hread : ∀ entry ∈ entries, isReadable entry.address = true) : e.isA .encoding = true := by
  obtain ⟨entry, hmem, hentry⟩ := Except.exists_mem_of_mapM_eq_error h
  exact isA_encoding_of_addressBytes (Except.eq_error_of_bind_pure hentry) (hread entry hmem)

theorem isA_encoding_of_legacyItem {tx : LegacyTransaction} {last : List Value} {e : Error}
    (h : legacyItem tx last = .error e) (hread : isReadable tx.recipient = true) :
    e.isA .encoding = true := by
  rcases Except.bind_eq_error_iff.mp h with h | ⟨recipient, -, h⟩
  · exact isA_encoding_of_addressBytes h hread
  rcases Except.bind_eq_error_iff.mp h with h | ⟨front, -, h⟩
  · exact isA_encoding_of_numbers h
  rcases Except.bind_eq_error_iff.mp h with h | ⟨value, -, h⟩
  · exact isA_encoding_of_eq_misfit (number_eq_error h)
  rcases Except.bind_eq_error_iff.mp h with h | ⟨data, -, h⟩
  · exact isA_encoding_of_eq_misfit (binary_eq_error h)
  exact isA_encoding_of_numbers (Except.eq_error_of_bind_pure h)

theorem isA_encoding_of_dynamicFeeItem {tx : DynamicFeeTransaction} {last : List Value}
    {e : Error} (h : dynamicFeeItem tx last = .error e)
    (hread : (dynamicFee tx).readsAddresses = true) : e.isA .encoding = true := by
  simp only [readsAddresses, Bool.and_eq_true, List.all_eq_true] at hread
  rcases Except.bind_eq_error_iff.mp h with h | ⟨recipient, -, h⟩
  · exact isA_encoding_of_addressBytes h hread.1
  rcases Except.bind_eq_error_iff.mp h with h | ⟨accessList, -, h⟩
  · exact isA_encoding_of_accessList h hread.2
  rcases Except.bind_eq_error_iff.mp h with h | ⟨front, -, h⟩
  · exact isA_encoding_of_numbers h
  rcases Except.bind_eq_error_iff.mp h with h | ⟨value, -, h⟩
  · exact isA_encoding_of_eq_misfit (number_eq_error h)
  rcases Except.bind_eq_error_iff.mp h with h | ⟨data, -, h⟩
  · exact isA_encoding_of_eq_misfit (binary_eq_error h)
  rcases Except.bind_eq_error_iff.mp h with h | ⟨entries, -, h⟩
  · obtain ⟨entry, -, hentry⟩ := Except.exists_mem_of_mapM_eq_error h
    exact isA_encoding_of_eq_misfit (accessItem_eq_error hentry)
  exact isA_encoding_of_numbers (Except.eq_error_of_bind_pure h)

end Transaction

end MetaTx
