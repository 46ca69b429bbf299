import MetaTx.Proofs.Transaction.Sending

/-!
# Parities of sent transactions

The legacy shape takes a signature only with its own chain id in `v`, and what is left of `v` is then
a parity. The dynamic fee shape takes any signature: its recovery id, whichever convention it is told
by, goes into the place of the parity. It is one for five kinds of `v` only. With any other that is
not negative, bytes are made that no receiver reads.
-/

namespace MetaTx

/-! ## Reading parities -/

namespace SentRecord

/-- No receiver reads a dynamic fee transaction whose parity is none. -/
theorem ofDynamicFee?_items_of_le {fields : DynamicFeeFields} {chainId id r s : Nat} (hid : 2 ≤ id) :
    ofDynamicFee? (.list (fields.items chainId ++ [.ofNat id, .ofNat r, .ofNat s])) = none := by
  simp only [DynamicFeeFields.items, List.cons_append, List.nil_append, ofDynamicFee?,
    number?_ofNat, Option.bind_eq_bind, Option.bind_some, hid, ↓reduceIte]
  cases recipient? (.bytes fields.recipient) <;> cases
    (fields.accessList.map accessEntryItem).mapM entry? <;> rfl

theorem ofRaw?_raw_dynamicFee_of_le {fields : DynamicFeeFields} {chainId id r s : Nat} (hid : 2 ≤ id)
    (hfit : ((TransactionFields.dynamicFee fields).raw chainId id r s).length < Bytes.limit 8) :
    ofRaw? ((TransactionFields.dynamicFee fields).raw chainId id r s) = none := by
  simp only [TransactionFields.raw, List.length_cons] at hfit ⊢
  rw [ofRaw?, if_pos rfl, Rlp.decode?_encode (by omega)]
  exact ofDynamicFee?_items_of_le hid

end SentRecord

/-! ## Taking a signature -/

namespace Transaction

variable {tx : Transaction} {sig : Signature} {fields : TransactionFields} {chainId id : Nat}

theorem isFoldedWith_iff {chain : Value} : isFoldedWith sig chain = true ↔
    ∃ chainId : Nat, chain.asInteger? = some (chainId : Int) ∧
      (sig.v = 35 + 2 * chainId ∨ sig.v = 36 + 2 * chainId) := by
  rw [isFoldedWith, Bool.and_eq_true, beq_iff_eq, Option.isSome_iff_exists]
  constructor
  · rintro ⟨⟨carried, hcarried⟩, hsame⟩
    have hv := Signature.chainId?_eq_some_iff.mp hcarried
    obtain ⟨chainId, rfl⟩ := Int.eq_ofNat_of_zero_le (show 0 ≤ carried by omega)
    exact ⟨chainId, hsame.symm.trans hcarried, by omega⟩
  · rintro ⟨chainId, hchain, hv⟩
    have hcarried : sig.chainId? = some (chainId : Int) :=
      Signature.chainId?_eq_some_iff.mpr (by omega)
    exact ⟨⟨chainId, hcarried⟩, hcarried.trans hchain.symm⟩

/-- A transaction with plain fields on a chain takes a signature with a recovery id. The legacy shape
asks for its chain in `v`, the other one for nothing. -/
inductive Takes (sig : Signature) : Transaction → TransactionFields → (chainId id : Nat) → Prop
  | legacy {tx : LegacyTransaction} {fields : LegacyFields} {chainId id : Nat} (h : tx.Holds fields)
      (hchain : tx.chainId.asInteger? = some (chainId : Int)) (hid : id < 2)
      (hv : sig.v = id + chainId * 2 + 35) : Takes sig (.legacy tx) (.legacy fields) chainId id
  | dynamicFee {tx : DynamicFeeTransaction} {fields : DynamicFeeFields} {chainId id : Nat}
      (h : tx.Holds fields) (hchain : tx.chainId = .int chainId) (hid : sig.recoveryId = id) :
      Takes sig (.dynamicFee tx) (.dynamicFee fields) chainId id

theorem Takes.holds (h : Takes sig tx fields chainId id) : tx.Holds fields := by
  cases h with
  | legacy h => exact .legacy h
  | dynamicFee h => exact .dynamicFee h

theorem Takes.chainId_eq (h : Takes sig tx fields chainId id) :
    tx.chainId.asInteger? = some (chainId : Int) := by
  cases h with
  | legacy _ hchain => exact hchain
  | @dynamicFee tx _ _ _ _ hchain =>
    show tx.chainId.asInteger? = _
    rw [hchain]
    rfl

theorem Takes.recoveryId_eq (h : Takes sig tx fields chainId id) : sig.recoveryId = id := by
  cases h with
  | legacy _ _ hid hv =>
    have hcases := sig.recoveryId_cases
    omega
  | dynamicFee _ _ hid => exact hid

theorem exists_takes_of_legacy {tx : LegacyTransaction} {sent : SignedTransaction}
    (h : (legacy tx).encodeSigned sig = .ok sent) :
    ∃ fields chainId id, ∃ r s : Nat, Takes sig (.legacy tx) fields chainId id ∧ sig.r = r ∧
      sig.s = s ∧ sent = ⟨fields.raw chainId id r s, sig⟩ := by
  by_cases hfolded : isFoldedWith sig tx.chainId = true
  · obtain ⟨chainId, hchain, hv⟩ := isFoldedWith_iff.mp hfolded
    obtain ⟨id, hid, hv⟩ : ∃ id : Nat, id < 2 ∧ sig.v = id + chainId * 2 + 35 := by
      rcases hv with hv | hv
      · exact ⟨0, by omega, by omega⟩
      · exact ⟨1, by omega, by omega⟩
    obtain ⟨item, hitem⟩ :
        ∃ item, legacyItem tx [.int sig.v, .int sig.r, .int sig.s] = .ok item := by
      simp only [encodeSigned, hfolded] at h
      obtain ⟨item, hitem, -⟩ := Except.bind_eq_ok_iff.mp h
      exact ⟨item, hitem⟩
    obtain ⟨fields, hfields⟩ := exists_holds_of_legacyItem hitem
    have hlast := exists_last_of_legacyItem hitem
    obtain ⟨r, hr⟩ := hlast (.int sig.r) (by simp)
    obtain ⟨s, hs⟩ := hlast (.int sig.s) (by simp)
    have hencoded := encodeSigned_legacy hfields hfolded (v := id + chainId * 2 + 35) (by omega)
      (Value.int.inj hr) (Value.int.inj hs)
    exact ⟨.legacy fields, chainId, id, r, s, .legacy hfields hchain hid hv, Value.int.inj hr,
      Value.int.inj hs, Except.ok.inj (h.symm.trans hencoded)⟩
  · simp only [encodeSigned, hfolded] at h
    cases h

theorem exists_takes_of_dynamicFee {tx : DynamicFeeTransaction} {sent : SignedTransaction}
    (h : (dynamicFee tx).encodeSigned sig = .ok sent) :
    ∃ fields chainId id, ∃ r s : Nat, Takes sig (.dynamicFee tx) fields chainId id ∧ sig.r = r ∧
      sig.s = s ∧ sent = ⟨fields.raw chainId id r s, sig⟩ := by
  obtain ⟨item, hitem, -⟩ := Except.bind_eq_ok_iff.mp h
  obtain ⟨fields, hfields⟩ := exists_holds_of_dynamicFeeItem hitem
  obtain ⟨⟨chainId, hchain⟩, hlast⟩ := exists_last_of_dynamicFeeItem hitem
  obtain ⟨id, hid⟩ := hlast (.int sig.recoveryId) (by simp)
  obtain ⟨r, hr⟩ := hlast (.int sig.r) (by simp)
  obtain ⟨s, hs⟩ := hlast (.int sig.s) (by simp)
  have hencoded := encodeSigned_dynamicFee hfields hchain (Value.int.inj hid) (Value.int.inj hr)
    (Value.int.inj hs)
  exact ⟨.dynamicFee fields, chainId, id, r, s, .dynamicFee hfields hchain (Value.int.inj hid),
    Value.int.inj hr, Value.int.inj hs, Except.ok.inj (h.symm.trans hencoded)⟩

theorem exists_takes (sent : SignedTransaction) (h : tx.encodeSigned sig = .ok sent) :
    ∃ fields chainId id, ∃ r s : Nat, Takes sig tx fields chainId id ∧ sig.r = r ∧ sig.s = s ∧
      sent = ⟨fields.raw chainId id r s, sig⟩ := by
  cases tx with
  | legacy tx => exact exists_takes_of_legacy h
  | dynamicFee tx => exact exists_takes_of_dynamicFee h

/-- What is sent is read as it was signed, or it is read by nobody. -/
theorem Takes.ofRaw?_raw {r s : Nat} (h : Takes sig tx fields chainId id)
    (hfit : (fields.raw chainId id r s).length < Bytes.limit 8) :
    SentRecord.ofRaw? (fields.raw chainId id r s) =
      if id < 2 then some ⟨fields, chainId, id, r, s⟩ else none := by
  by_cases hid : id < 2
  · rw [if_pos hid]
    exact SentRecord.ofRaw?_raw h.holds.isSized hid hfit
  · rw [if_neg hid]
    cases h with
    | legacy _ _ hlow => exact absurd hlow hid
    | dynamicFee => exact SentRecord.ofRaw?_raw_dynamicFee_of_le (by omega) hfit

theorem Takes.lt_two_iff (h : Takes sig tx fields chainId id) : id < 2 ↔
    tx.shape = .legacy ∨ sig.v = 0 ∨ sig.v = 1 ∨ sig.v = 27 ∨ sig.v = 28 ∨ 35 ≤ sig.v := by
  have hid := h.recoveryId_eq
  have hparity := sig.isParity_iff
  cases h with
  | legacy _ _ hlow => exact ⟨fun _ => .inl rfl, fun _ => hlow⟩
  | dynamicFee =>
    constructor
    · intro hlow
      exact .inr (hparity.mp (by omega))
    · rintro (hshape | hv)
      · cases hshape
      · have := hparity.mpr hv
        omega

/-- **Which parities are sent.** The bytes of a signed transaction hold its fields, its chain, the
scalars of the signature and the recovery id. In the legacy shape, `v` is 35 or 36 and twice the chain
id. In the dynamic fee shape the recovery id of any `v` that is not negative is sent. It is a parity
exactly in the legacy shape and for `v` of 0, 1, 27, 28 or from 35 on, and exactly then a receiver
reads the transaction. All that is asked for this is that eight bytes can count what is sent, as they
can if the fields leave room for the signature. -/
theorem encodeSigned_parity (tx : Transaction) (sig : Signature) :
    (∀ sent, tx.encodeSigned sig = .ok sent →
      ∃ fields, ∃ chainId id r s : Nat, tx.Holds fields ∧
        tx.chainId.asInteger? = some (chainId : Int) ∧ sig.recoveryId = (id : Int) ∧ sig.r = r ∧
        sig.s = s ∧ sent = ⟨fields.raw chainId id r s, sig⟩ ∧
        (tx.shape = .legacy → sig.v = 35 + 2 * chainId ∨ sig.v = 36 + 2 * chainId) ∧
        (id < 2 ↔ tx.shape = .legacy ∨
          sig.v = 0 ∨ sig.v = 1 ∨ sig.v = 27 ∨ sig.v = 28 ∨ 35 ≤ sig.v) ∧
        (sent.raw.length < Bytes.limit 8 → SentRecord.ofRaw? sent.raw =
          if id < 2 then some ⟨fields, chainId, id, r, s⟩ else none) ∧
        (fields.Fits chainId → r < Bytes.limit 32 → s < Bytes.limit 32 →
          sent.raw.length < Bytes.limit 8)) ∧
    (tx.shape = .dynamicFee → (∃ fields, tx.Holds fields) →
      (∃ chainId : Nat, tx.chainId = .int chainId) → 0 ≤ sig.r → 0 ≤ sig.s → 0 ≤ sig.v →
        ∃ sent, tx.encodeSigned sig = .ok sent) := by
  constructor
  · intro sent h
    obtain ⟨fields, chainId, id, r, s, htakes, hr, hs, rfl⟩ := exists_takes sent h
    refine ⟨fields, chainId, id, r, s, htakes.holds, htakes.chainId_eq, htakes.recoveryId_eq, hr, hs,
      rfl, ?_, htakes.lt_two_iff, htakes.ofRaw?_raw, ?_⟩
    · intro hshape
      cases htakes with
      | legacy _ _ hid hv => omega
      | dynamicFee => cases hshape
    · intro hfits
      have hid := htakes.recoveryId_eq
      have hlt := sig.recoveryId_lt
      exact hfits.length_raw_lt (by omega)
  · rintro hshape ⟨fields, hfields⟩ ⟨chainId, hchain⟩ hr hs hv
    obtain ⟨id, hid⟩ := Int.eq_ofNat_of_zero_le (sig.recoveryId_nonneg_iff.mpr hv)
    obtain ⟨r, hr⟩ := Int.eq_ofNat_of_zero_le hr
    obtain ⟨s, hs⟩ := Int.eq_ofNat_of_zero_le hs
    cases hfields with
    | legacy => cases hshape
    | dynamicFee hfields => exact ⟨_, encodeSigned_dynamicFee hfields hchain hid hr hs⟩

/-- A dynamic fee transaction that creates a contract without code. -/
def sampleDynamicFee : DynamicFeeTransaction where
  nonce := .int 0
  maxFee := .int 1
  maxPriorityFee := .int 1
  gas := .int 21000
  recipient := .null
  chainId := .int 1

theorem holds_sampleDynamicFee :
    (dynamicFee sampleDynamicFee).Holds (.dynamicFee ⟨0, 1, 1, 21000, [], 0, [], []⟩) :=
  .dynamicFee ⟨rfl, rfl, rfl, rfl, rfl, rfl, rfl, .nil⟩

theorem encodeSigned_parity_sample :
    ∃ sent, (dynamicFee sampleDynamicFee).encodeSigned ⟨1, 1, 28⟩ = .ok sent ∧
      ∃ fields : TransactionFields, ∃ chainId r s : Nat,
        sent = ⟨fields.raw chainId 1 r s, ⟨1, 1, 28⟩⟩ ∧
        SentRecord.ofRaw? sent.raw = some ⟨fields, chainId, 1, r, s⟩ := by
  obtain ⟨hsent, hexists⟩ := encodeSigned_parity (dynamicFee sampleDynamicFee) ⟨1, 1, 28⟩
  obtain ⟨sent, h⟩ := hexists rfl ⟨_, holds_sampleDynamicFee⟩ ⟨1, rfl⟩ (by decide) (by decide)
    (by decide)
  obtain ⟨fields, chainId, id, r, s, -, -, hid, -, -, hraw, -, -, hread, -⟩ := hsent sent h
  obtain rfl : 1 = id := Int.ofNat.inj hid
  have hbytes : ⟨[0x02, 0xce, 0x01, 0x80, 0x01, 0x01, 0x82, 0x52, 0x08, 0x80, 0x80, 0x80, 0xc0, 0x01,
      0x01, 0x01], ⟨1, 1, 28⟩⟩ = sent := Except.ok.inj h
  have hfit : sent.raw.length < Bytes.limit 8 := by
    rw [← hbytes]
    decide
  exact ⟨sent, h, fields, chainId, r, s, hraw, hread hfit⟩

/-- The recovery id two is sent as a parity, and nobody reads what is sent. -/
theorem encodeSigned_noParity :
    ∃ sent, (dynamicFee sampleDynamicFee).encodeSigned ⟨1, 1, 2⟩ = .ok sent ∧
      sent.raw = [0x02, 0xce, 0x01, 0x80, 0x01, 0x01, 0x82, 0x52, 0x08, 0x80, 0x80, 0x80, 0xc0, 0x02,
        0x01, 0x01] ∧
      SentRecord.ofRaw? sent.raw = none := by
  have hnone : SentRecord.ofRaw?
      ((TransactionFields.dynamicFee ⟨0, 1, 1, 21000, [], 0, [], []⟩).raw 1 2 1 1) = none :=
    SentRecord.ofRaw?_raw_dynamicFee_of_le (by decide) (by decide)
  exact ⟨_, rfl, by decide, hnone⟩

end Transaction

end MetaTx
