import MetaTx.Proofs.Hash.Keccak
import MetaTx.Proofs.Service.Signing
import MetaTx.Proofs.Transaction.Sent

/-!
# Sending transactions

A signer fills in the chain, has the hash of the fields signed, folds the chain into the
signature, and lays out the fields again with it. Here these steps are followed for a transaction
that holds plain fields, and for one that does not, which never gets to be signed.
-/

namespace MetaTx

/-! ## What is signed and sent -/

namespace Transaction

variable {tx : Transaction} {fields : TransactionFields} {chainId : Nat}

theorem Holds.isSized (h : tx.Holds fields) : fields.IsSized := by
  cases h with
  | legacy h => exact length_of_addressBytes h.recipient
  | dynamicFee h =>
    exact ⟨length_of_addressBytes h.recipient, isSizedEntry_of_holds h.accessList⟩

theorem withChainId_chainId (tx : Transaction) (chain : Value) :
    (tx.withChainId chain).withChainId tx.chainId = tx := by
  cases tx <;> rfl

theorem Holds.withChainId (h : tx.Holds fields) (chain : Value) :
    (tx.withChainId chain).Holds fields := by
  cases h with
  | legacy h => exact .legacy ⟨h.nonce, h.gasPrice, h.gas, h.recipient, h.value, h.data⟩
  | dynamicFee h =>
    exact .dynamicFee ⟨h.nonce, h.maxPriorityFee, h.maxFee, h.gas, h.recipient, h.value, h.data,
      h.accessList⟩

/-- The chain is no field that could be refused. -/
theorem holds_withChainId_iff {chain : Value} :
    (tx.withChainId chain).Holds fields ↔ tx.Holds fields := by
  constructor
  · intro h
    have hback := h.withChainId tx.chainId
    rwa [withChainId_chainId] at hback
  · intro h
    exact h.withChainId chain

theorem readsAddresses_withChainId {chain : Value} :
    (tx.withChainId chain).readsAddresses = tx.readsAddresses := by
  cases tx <;> rfl

theorem preimage_eq (h : tx.Holds fields) (hchain : tx.chainId = .int chainId) :
    tx.preimage = .ok (fields.preimage chainId) := by
  cases h with
  | @legacy tx fields h =>
    have hitem : legacyItem tx [.int chainId, .int 0, .int 0] =
        .ok (.list (fields.items ++ [.ofNat chainId, .ofNat 0, .ofNat 0])) :=
      legacyItem_eq h [chainId, 0, 0]
    change tx.chainId = .int chainId at hchain
    simp only [preimage, Transaction.chainId, hchain, hitem]
    rfl
  | @dynamicFee tx fields h =>
    have hitem := dynamicFeeItem_eq h hchain []
    simp only [List.map_nil, List.append_nil] at hitem
    change tx.chainId = .int chainId at hchain
    simp only [preimage, Transaction.chainId, hchain, hitem]
    rfl

theorem signingHash_eq (h : tx.Holds fields) (hchain : tx.chainId = .int chainId) :
    tx.signingHash = .ok (fields.signingHash chainId) := by
  rw [signingHash, preimage_eq h hchain]
  rfl

/-- Without plain fields nothing is hashed. -/
theorem exists_signingHash_eq_error (h : ¬∃ fields, tx.Holds fields)
    (hchain : tx.chainId = .int chainId) :
    ∃ e, tx.signingHash = .error e ∧ (tx.readsAddresses = true → e.isA .encoding = true) := by
  cases tx with
  | legacy tx =>
    change tx.chainId = .int chainId at hchain
    cases hitem : legacyItem tx [tx.chainId, .int 0, .int 0] with
    | ok item =>
      obtain ⟨fields, hfields⟩ := exists_holds_of_legacyItem hitem
      exact absurd ⟨_, .legacy hfields⟩ h
    | error e =>
      refine ⟨e, ?_, isA_encoding_of_legacyItem hitem⟩
      rw [hchain] at hitem
      simp only [signingHash, preimage, Transaction.chainId, hchain, hitem]
      rfl
  | dynamicFee tx =>
    change tx.chainId = .int chainId at hchain
    cases hitem : dynamicFeeItem tx [] with
    | ok item =>
      obtain ⟨fields, hfields⟩ := exists_holds_of_dynamicFeeItem hitem
      exact absurd ⟨_, .dynamicFee hfields⟩ h
    | error e =>
      refine ⟨e, ?_, isA_encoding_of_dynamicFeeItem hitem⟩
      simp only [signingHash, preimage, Transaction.chainId, hchain, hitem]
      rfl

theorem encodeSigned_legacy {tx : LegacyTransaction} {fields : LegacyFields} (h : tx.Holds fields)
    {sig : Signature} (hfolded : isFoldedWith sig tx.chainId = true) {v r s : Nat}
    (hv : sig.v = v) (hr : sig.r = r) (hs : sig.s = s) :
    (legacy tx).encodeSigned sig =
      .ok ⟨Rlp.encode (.list (fields.items ++ [.ofNat v, .ofNat r, .ofNat s])), sig⟩ := by
  have hitem : legacyItem tx [.int sig.v, .int sig.r, .int sig.s] =
      .ok (.list (fields.items ++ [.ofNat v, .ofNat r, .ofNat s])) := by
    rw [hv, hr, hs]
    exact legacyItem_eq h [v, r, s]
  simp only [encodeSigned, hfolded, hitem]
  rfl

theorem encodeSigned_dynamicFee {tx : DynamicFeeTransaction} {fields : DynamicFeeFields}
    (h : tx.Holds fields) (hchain : tx.chainId = .int chainId) {sig : Signature}
    {parity r s : Nat} (hparity : sig.recoveryId = parity) (hr : sig.r = r) (hs : sig.s = s) :
    (dynamicFee tx).encodeSigned sig = .ok ⟨dynamicFeeType ::
      Rlp.encode (.list (fields.items chainId ++ [.ofNat parity, .ofNat r, .ofNat s])), sig⟩ := by
  have hitem : dynamicFeeItem tx [.int sig.recoveryId, .int sig.r, .int sig.s] =
      .ok (.list (fields.items chainId ++ [.ofNat parity, .ofNat r, .ofNat s])) := by
    rw [hparity, hr, hs]
    exact dynamicFeeItem_eq h hchain [parity, r, s]
  simp only [encodeSigned, hitem]
  rfl

/-- The log does not get in the way of a chain id that can be written. -/
theorem encodeLogged_of_lt (hchain : tx.chainId = .int chainId) (hlt : chainId < Text.writeLimit)
    (sig : Signature) : tx.encodeLogged sig = tx.encodeSigned sig := by
  rw [encodeLogged, hchain, Value.log_of_writable (by omega)]
  cases tx.encodeSigned sig <;> rfl

theorem encodeLogged_of_long {sig : Signature} {sent : SignedTransaction}
    (hchain : tx.chainId = .int chainId) (hlong : Text.writeLimit ≤ chainId)
    (h : tx.encodeSigned sig = .ok sent) : tx.encodeLogged sig = .error (.fault .longInteger) := by
  rw [encodeLogged, hchain, Value.log_of_long (by omega), h]
  rfl

/-- The bytes that are sent are told by the fields, the chain and the raw signature. -/
theorem encodeSigned_folded (h : tx.Holds fields) (hchain : tx.chainId = .int chainId)
    {sig : Signature} {parity r s : Nat} (hparity : parity < 2) (hv : sig.v = parity)
    (hr : sig.r = r) (hs : sig.s = s) :
    tx.encodeSigned (sig.folded chainId) =
      .ok ⟨fields.raw chainId parity r s, sig.folded chainId⟩ := by
  have hraw : sig.v = 0 ∨ sig.v = 1 := by omega
  cases h with
  | @legacy tx fields h =>
    have hfolded : isFoldedWith (sig.folded chainId) tx.chainId = true := by
      change tx.chainId = .int chainId at hchain
      rw [isFoldedWith, Signature.chainId?_folded hraw, hchain]
      simp [Value.asInteger?]
    have hnumber : (sig.folded chainId).v = (parity + chainId * 2 + 35 : Nat) := by
      simp only [Signature.folded, Signature.foldedBase]
      omega
    exact encodeSigned_legacy h hfolded hnumber hr hs
  | @dynamicFee tx fields h =>
    exact encodeSigned_dynamicFee h hchain ((Signature.recoveryId_folded hraw chainId).trans hv)
      hr hs

end Transaction

/-! ## The steps of a signer -/

namespace Signer

variable {signer : Signer} {tx : Transaction} {chainId : Nat}

/-- The chain that a transaction is signed for: its own, or that of the signer if it has none. -/
def EffectiveChain (signer : Signer) (tx : Transaction) (chainId : Nat) : Prop :=
  tx.chainId = .int chainId ∨ tx.chainId = .null ∧ signer.chainId? = some (chainId : Int)

/-- In a session, the backend of a signer answers a digest with a raw signature by its key. -/
structure Answers (signer : Signer) (session : Session) (digest : Bytes) (sig : Signature)
    (after : Session) : Prop where
  outcome : (signer.signDigest digest).outcome session = (.ok sig, after)
  v : sig.v = 0 ∨ sig.v = 1
  r_pos : 0 < sig.r
  r_lt : sig.r < Secp256k1.n
  s_pos : 0 < sig.s
  s_lt : sig.s < Secp256k1.n
  recover : sig.recover digest = .ok signer.publicKey

theorem bind_of_own {own : Int} (h : tx.chainId = .int own) : signer.bind tx = tx := by
  rw [bind, h]

theorem bind_of_null {own : Int} (h : tx.chainId = .null) (hchain : signer.chainId? = some own) :
    signer.bind tx = tx.withChainId (.int own) := by
  rw [bind, h, chainValue, hchain]

theorem EffectiveChain.chainId_bind (h : signer.EffectiveChain tx chainId) :
    (signer.bind tx).chainId = .int chainId := by
  rcases h with h | ⟨h, hchain⟩
  · rw [bind_of_own h, h]
  · rw [bind_of_null h hchain]
    cases tx <;> rfl

theorem holds_bind_iff {fields : TransactionFields} :
    (signer.bind tx).Holds fields ↔ tx.Holds fields := by
  unfold bind
  split
  · exact Transaction.holds_withChainId_iff
  · rfl

theorem readsAddresses_bind : (signer.bind tx).readsAddresses = tx.readsAddresses := by
  unfold bind
  split
  · exact Transaction.readsAddresses_withChainId
  · rfl

theorem EffectiveChain.bind_bind (h : signer.EffectiveChain tx chainId) :
    signer.bind (signer.bind tx) = signer.bind tx :=
  bind_of_own h.chainId_bind

theorem outcome_signBound {session after : Session} {digest : Bytes} {sig : Signature}
    (hash : tx.signingHash = .ok digest) (hchain : tx.chainId = .int chainId)
    (h : signer.Answers session digest sig after) :
    (signer.signBound tx).outcome session = (.ok (sig.folded chainId), after) := by
  have hlift : (liftM tx.signingHash : Run Bytes).outcome session = (.ok digest, session) := by
    rw [Run.outcome_lift, hash]
  refine (Run.outcome_bind_ok hlift).trans ((Run.outcome_bind_ok h.outcome).trans ?_)
  rw [hchain]
  exact (Run.outcome_lift _ _).trans (congrArg (·, after) (Signature.fold_toMessage h.v chainId))

theorem outcome_signBound_error {e : Error} (hash : tx.signingHash = .error e)
    (session : Session) : (signer.signBound tx).outcome session = (.error e, session) := by
  have hlift : (liftM tx.signingHash : Run Bytes).outcome session = (.error e, session) := by
    rw [Run.outcome_lift, hash]
  exact Run.outcome_bind_error hlift

/-- The parts of a raw signature as numbers. -/
theorem Answers.exists_parts {session after : Session} {digest : Bytes} {sig : Signature}
    (h : signer.Answers session digest sig after) :
    ∃ parity r s : Nat, parity < 2 ∧ r < Bytes.limit 32 ∧ s < Bytes.limit 32 ∧
      sig = ⟨r, s, parity⟩ := by
  obtain ⟨r, hr⟩ := Int.eq_ofNat_of_zero_le (Int.le_of_lt h.r_pos)
  obtain ⟨s, hs⟩ := Int.eq_ofNat_of_zero_le (Int.le_of_lt h.s_pos)
  obtain ⟨parity, hv, hparity⟩ : ∃ parity : Nat, sig.v = parity ∧ parity < 2 := by
    rcases h.v with hv | hv
    · exact ⟨0, hv, by decide⟩
    · exact ⟨1, hv, by decide⟩
  have horder : Secp256k1.n < Bytes.limit 32 := by decide
  have hrlt := h.r_lt
  have hslt := h.s_lt
  refine ⟨parity, r, s, hparity, by omega, by omega, ?_⟩
  rw [← hr, ← hs, ← hv]

/-- A transaction that holds plain fields is laid out, once its hash is signed. Then its chain is
told in the log. -/
theorem outcome_send {session after : Session} {fields : TransactionFields} {parity r s : Nat}
    (hchain : signer.EffectiveChain tx chainId) (hfields : tx.Holds fields) (hparity : parity < 2)
    (h : signer.Answers session (fields.signingHash chainId) ⟨r, s, parity⟩ after) :
    ∃ sig, (signer.bind tx).encodeSigned sig =
        .ok ⟨fields.raw chainId parity r s, (Signature.mk r s parity).folded chainId⟩ ∧
      (signer.send tx).outcome session = ((signer.bind tx).encodeLogged sig, after) := by
  have hbound : (signer.bind tx).Holds fields := holds_bind_iff.mpr hfields
  have hown := hchain.chainId_bind
  -- The chain is filled in twice, which is the same as once.
  have hsigned : (signer.signTransaction (signer.bind tx)).outcome session =
      (.ok ((Signature.mk r s parity).folded chainId), after) := by
    rw [signTransaction, hchain.bind_bind]
    exact outcome_signBound (Transaction.signingHash_eq hbound hown) hown h
  exact ⟨_, Transaction.encodeSigned_folded hbound hown hparity rfl rfl rfl,
    (Run.outcome_bind_ok hsigned).trans (Run.outcome_lift _ _)⟩

/-- A transaction that holds no plain fields is refused before anything is signed. -/
theorem outcome_send_error (hchain : signer.EffectiveChain tx chainId)
    (hfields : ¬∃ fields, tx.Holds fields) :
    ∃ e, (∀ session, (signer.send tx).outcome session = (.error e, session)) ∧
      (tx.readsAddresses = true → e.isA .encoding = true) := by
  have hbound : ¬∃ fields, (signer.bind tx).Holds fields := by
    simpa only [holds_bind_iff] using hfields
  obtain ⟨e, hash, hkind⟩ :=
    Transaction.exists_signingHash_eq_error hbound hchain.chainId_bind
  rw [readsAddresses_bind] at hkind
  refine ⟨e, fun session => ?_, hkind⟩
  have hsigned : (signer.signTransaction (signer.bind tx)).outcome session =
      (.error e, session) := by
    rw [signTransaction, hchain.bind_bind]
    exact outcome_signBound_error hash session
  exact Run.outcome_bind_error hsigned

/-! ## A sample -/

/-- A legacy transaction that creates a contract without code. -/
def sampleTransaction : LegacyTransaction where
  nonce := .int 0
  gasPrice := .int 1
  gas := .int 21000
  recipient := .null

def sampleFields : LegacyFields := ⟨0, 1, 21000, [], 0, []⟩

theorem holds_sample : (Transaction.legacy sampleTransaction).Holds (.legacy sampleFields) :=
  .legacy ⟨rfl, rfl, rfl, rfl, rfl, rfl⟩

theorem signingHash_sample :
    (TransactionFields.legacy sampleFields).signingHash 1 = sampleDigest := by
  rw [TransactionFields.signingHash, Keccak.Plain.keccak_eq]
  decide +kernel

theorem answers_sample : sample.Answers sampleSession sampleDigest ⟨1, 1, 0⟩
    (sampleSession.asked (.sign "key" sampleDigest)) where
  outcome := outcome_signDigest_ones rfl recoveryId?_sample rfl
  v := .inl rfl
  r_pos := by decide
  r_lt := by decide
  s_pos := by decide
  s_lt := by decide
  recover := recover_sample

/-- **What is sent recovers to its signer.** The bytes are laid out from the fields, the chain and the
signature. The fields that are read in them are those of the transaction, and the hash that is made
from them again recovers to the key of the signer. All that is asked of the fields is that they leave
room among the lengths that eight bytes can count, and of the chain id that it has not too many digits
for the log. A transaction with a field that is refused never gets to be signed. It is refused with an
encoding error, unless an address is given as a float, a list or a mapping, which no address is
declared as, or as an integer that has too many digits to be told. -/
theorem send_recovers {signer : Signer} {tx : Transaction} {chainId : Nat}
    (hchain : signer.EffectiveChain tx chainId) :
    (chainId < Text.writeLimit → ∀ fields, tx.Holds fields → ∀ session after sig,
      signer.Answers session (fields.signingHash chainId) sig after →
        ∃ sent, (signer.send tx).outcome session = (.ok sent, after) ∧
          sent.raw = fields.raw chainId sig.v.toNat sig.r.toNat sig.s.toNat ∧
          (fields.Fits chainId →
            ∃ record, SentRecord.ofRaw? sent.raw = some record ∧ record.fields = fields ∧
              record.chainId = chainId ∧ record.signature = sig ∧
              record.signature.recover record.signingHash = .ok signer.publicKey)) ∧
      ((¬∃ fields, tx.Holds fields) →
        ∃ e, (∀ session, (signer.send tx).outcome session = (.error e, session)) ∧
          (tx.readsAddresses = true → e.isA .encoding = true)) := by
  refine ⟨fun hlt fields hfields session after sig h => ?_, outcome_send_error hchain⟩
  obtain ⟨parity, r, s, hparity, hr, hs, rfl⟩ := h.exists_parts
  obtain ⟨sig, hencoded, hsend⟩ := outcome_send hchain hfields hparity h
  rw [Transaction.encodeLogged_of_lt hchain.chainId_bind hlt, hencoded] at hsend
  refine ⟨_, hsend, rfl, fun hfits => ?_⟩
  have hcounted := hfits.length_raw_lt (Nat.lt_trans hparity (by decide)) hr hs
  have hread := SentRecord.ofRaw?_raw hfields.isSized hparity hcounted
  exact ⟨_, hread, rfl, rfl, rfl, h.recover⟩

theorem send_recovers_sample :
    ∃ sent, (sample.send (.legacy sampleTransaction)).outcome sampleSession =
        (.ok sent, sampleSession.asked (.sign "key" sampleDigest)) ∧
      ∃ record, SentRecord.ofRaw? sent.raw = some record ∧
        record.fields = .legacy sampleFields ∧ record.chainId = 1 ∧
        record.signature = ⟨1, 1, 0⟩ ∧
        record.signature.recover record.signingHash = .ok sample.publicKey := by
  have hlt : 1 < Text.writeLimit := Text.lt_writeLimit (by decide)
  have hfits : (TransactionFields.legacy sampleFields).Fits 1 := by
    unfold TransactionFields.Fits
    decide +kernel
  have hanswers : sample.Answers sampleSession
      ((TransactionFields.legacy sampleFields).signingHash 1) ⟨1, 1, 0⟩
      (sampleSession.asked (.sign "key" sampleDigest)) := by
    rw [signingHash_sample]
    exact answers_sample
  obtain ⟨sent, hsend, -, hread⟩ :=
    (send_recovers (.inr ⟨rfl, rfl⟩)).1 hlt _ holds_sample _ _ _ hanswers
  exact ⟨sent, hsend, hread hfits⟩

/-- A legacy transaction whose recipient is given as the float one and a half. -/
def floatRecipient : LegacyTransaction :=
  { sampleTransaction with recipient := .float ⟨0x3ff8000000000000⟩ }

/-- An address that is given as a float is refused, but with no encoding error. -/
theorem send_floatRecipient :
    (sample.send (.legacy floatRecipient)).outcome sampleSession =
        (.error (.fault .wrongType), sampleSession) ∧
      (Error.fault .wrongType).isA .encoding = false :=
  ⟨rfl, rfl⟩

end Signer

end MetaTx
