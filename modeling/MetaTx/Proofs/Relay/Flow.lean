import MetaTx.Proofs.Hash.Keccak
import MetaTx.Proofs.Relay.Execution
import MetaTx.Proofs.Service.Traffic
import MetaTx.Proofs.Signer.Signature
import MetaTx.Proofs.Transaction.Preimage
import MetaTx.Relay.Flow

/-!
# The course of relaying through a gas payer

Two parties sign, one after the other. The sender signs the digest of the relay transaction. Only
if that came out, and the fields of the transaction around the call are accepted, the gas payer
signs its hash. The first error ends the course and is the error of the whole, and nobody is asked
twice. At the end everything that was made can be told from the bytes that are sent. How many bytes
these are is bounded by the call and the numbers of the gas payer, so that it is known beforehand
whether they can be counted.
-/

namespace MetaTx

namespace Relay

/-! ## Courses -/

/-- A signer that is asked to sign a digest, and what comes of it. -/
structure Asking where
  signer : Signer
  digest : Bytes
  outcome : Except Error Signature

/-- What the key service is sent when a signer is asked. -/
def Asking.requests (a : Asking) : List Service.Request := a.signer.backend.requests a.digest

/-- Signers are asked one after the other, and nothing else happens in the session. -/
inductive Asked : Session → List Asking → Session → Prop
  | nil (session : Session) : Asked session [] session
  | cons {before between after : Session} {a : Asking} {rest : List Asking}
      (h : (a.signer.signDigest a.digest).outcome before = (a.outcome, between))
      (hrest : Asked between rest after) : Asked before (a :: rest) after

/-- The transaction of the gas payer around a call. -/
def outer (call : ExecuteCall) (payer : Signer) (terms : GasTerms) : Transaction :=
  .dynamicFee (outerTransaction call payer terms)

/-- Who is asked to sign what, and how it all ends. The gas payer is asked only once the call with
the signature of the sender is made and the transaction around it can be hashed. A chain id with too
many digits for the log is noticed at the very end. -/
inductive Course (tx : RelayTx) (sender payer : Signer) (terms : GasTerms) (digest : Bytes) :
    List Asking → Except Error Relayed → Prop
  | senderFailed (e : Error) : Course tx sender payer terms digest [⟨sender, digest, .error e⟩]
      (.error e)
  | outerRefused {sig : Signature} {call : ExecuteCall} {e : Error}
      (hcall : (SignedRelayTx.mk tx sig.toMessage).call = .ok call)
      (houter : (outer call payer terms).signingHash = .error e) :
      Course tx sender payer terms digest [⟨sender, digest, .ok sig⟩] (.error e)
  | payerFailed {sig : Signature} {call : ExecuteCall} {hash : Bytes} (e : Error)
      (hcall : (SignedRelayTx.mk tx sig.toMessage).call = .ok call)
      (houter : (outer call payer terms).signingHash = .ok hash) :
      Course tx sender payer terms digest [⟨sender, digest, .ok sig⟩, ⟨payer, hash, .error e⟩]
        (.error e)
  | logFailed {sig payerSig : Signature} {call : ExecuteCall} {hash : Bytes} {chainId : Nat}
      (hcall : (SignedRelayTx.mk tx sig.toMessage).call = .ok call)
      (houter : (outer call payer terms).signingHash = .ok hash)
      (hchain : payer.chainId? = some (chainId : Int)) (hlong : Text.writeLimit ≤ chainId) :
      Course tx sender payer terms digest [⟨sender, digest, .ok sig⟩, ⟨payer, hash, .ok payerSig⟩]
        (.error (.fault .longInteger))
  | done {sig payerSig : Signature} {call : ExecuteCall} {hash : Bytes} {chainId : Nat}
      {sent : SignedTransaction} (hcall : (SignedRelayTx.mk tx sig.toMessage).call = .ok call)
      (houter : (outer call payer terms).signingHash = .ok hash)
      (hchain : payer.chainId? = some (chainId : Int)) (hlt : chainId < Text.writeLimit)
      (hsent : (outer call payer terms).encodeSigned (payerSig.folded chainId) = .ok sent) :
      Course tx sender payer terms digest [⟨sender, digest, .ok sig⟩, ⟨payer, hash, .ok payerSig⟩]
        (.ok ⟨⟨tx, sig.toMessage⟩, call, outerTransaction call payer terms, sent⟩)

/-! ## What is sent -/

/-- How many bytes the number takes that a value is. -/
def numberWidth : Value → Nat
  | .int n => Bytes.widthOf n.toNat
  | _ => 0

/-- Eight bytes can count the call and the numbers of the gas payer, with 229 bytes more for what else
stands in the transaction. -/
def Fits (tx : RelayTx) (payer : Signer) (terms : GasTerms) : Prop :=
  ([payer.chainValue, terms.nonce, terms.maxPriorityFee, terms.maxFee, terms.gasLimit].map
    numberWidth).sum + tx.callLength + 229 < Bytes.limit 8

/-- What is read in the bytes that are sent is the transaction of the gas payer around the call. -/
structure IsOuter (record : SentRecord) (fields : DynamicFeeFields) (relayed : Relayed)
    (tx : RelayTx) (payer : Signer) (terms : GasTerms) : Prop where
  shape : record.fields = .dynamicFee fields
  chainId : payer.chainId? = some (record.chainId : Int)
  recipient_length : fields.recipient.length = Address.width
  recipient : tx.domain.contract = Address.render fields.recipient
  value : fields.value = 0
  gas : terms.gasLimit = .int fields.gas
  nonce : terms.nonce = .int fields.nonce
  maxFee : terms.maxFee = .int fields.maxFee
  maxPriorityFee : terms.maxPriorityFee = .int fields.maxPriorityFee
  accessList : fields.accessList = []
  data : fields.data = relayed.call.data
  signature : relayed.payerSignature = record.signature.folded record.chainId
  recover : record.signature.recover record.signingHash = .ok payer.publicKey

/-- All that was made can be told from the bytes that are sent, if these can be counted. -/
structure IsComplete (relayed : Relayed) (tx : RelayTx) (payer : Signer) (terms : GasTerms) :
    Prop where
  hash : relayed.sent.hash = keccak relayed.sent.raw
  outer : Fits tx payer terms → ∃ record fields, SentRecord.ofRaw? relayed.sent.raw = some record ∧
    IsOuter record fields relayed tx payer terms
  call_length : relayed.call.data.length = tx.callLength
  call : tx.callLength < Bytes.limit Abi.wordWidth →
    ∃ e raw, Execution.ofCall? relayed.call.data = some e ∧
      relayed.senderSignature.toBytes = .ok raw ∧ e.Carries tx raw ∧ tx.digest = .ok e.digest

/-! ## Steps -/

variable {tx : RelayTx} {sender payer : Signer} {terms : GasTerms} {session after : Session}

/-- What is done once the sender has signed. -/
def wrap (signed : SignedRelayTx) (payer : Signer) (terms : GasTerms) : Run Relayed := do
  let call ← signed.call
  let sent ← payer.send (outer call payer terms)
  return ⟨signed, call, outerTransaction call payer terms, sent⟩

/-- The notice that a signer is not the sender. -/
def foreignNotice (tx : RelayTx) (signer : Signer) : Notice where
  level := .warning
  text :=
    s!"Relay request from {tx.request.sender} signed by {signer.account}; the forwarder will reject it"

/-- The notice that sender and gas payer are the same account. -/
def sameNotice (sender : Signer) : Notice where
  level := .warning
  text := s!"Sender and gas payer are the same account {sender.account}"

/-- Signing for the sender, once it was looked at who signs. -/
def signAs (tx : RelayTx) (signer : Signer) : Run SignedRelayTx := do
  let signature ← signer.signStructured tx.digest
  return ⟨tx, signature⟩

theorem outcome_sign_eq (tx : RelayTx) (signer : Signer) (session : Session) :
    (tx.sign signer).outcome session = (signAs tx signer).outcome (session.noted
      (if signer.account ≠ tx.request.sender then [foreignNotice tx signer] else [])) :=
  Session.outcome_ite_notify _ _ _ _ _

theorem outcome_viaGasPayer_eq (tx : RelayTx) (sender payer : Signer) (terms : GasTerms)
    (session : Session) :
    (viaGasPayer tx sender payer terms).outcome session =
      (do wrap (← tx.sign sender) payer terms).outcome
        (session.noted (if sender.account = payer.account then [sameNotice sender] else [])) :=
  Session.outcome_ite_notify _ _ _ _ _

/-- Up to the signature of the sender there are notices at most. -/
theorem outcome_sign {digest : Bytes} (hdigest : tx.digest = .ok digest) (sender : Signer)
    (session : Session) :
    ∃ notices, (tx.sign sender).outcome session =
      (do return SignedRelayTx.mk tx (← sender.signDigest digest).toMessage).outcome
        (session.noted notices) := by
  have hstructured : sender.signStructured tx.digest =
      Signature.toMessage <$> sender.signDigest digest := by
    simp [Signer.signStructured, hdigest, Run.lift_ok]
  have hnotices := outcome_sign_eq tx sender session
  rw [signAs, hstructured, bind_map_left] at hnotices
  exact ⟨_, hnotices⟩

theorem outcome_viaGasPayer {digest : Bytes} (hdigest : tx.digest = .ok digest)
    (sender payer : Signer) (terms : GasTerms) (session : Session) :
    ∃ notices, (viaGasPayer tx sender payer terms).outcome session =
      (do wrap ⟨tx, (← sender.signDigest digest).toMessage⟩ payer terms).outcome
        (session.noted notices) := by
  have hfirst := outcome_viaGasPayer_eq tx sender payer terms session
  obtain ⟨second, hsecond⟩ := outcome_sign hdigest sender (session.noted _)
  have hrest := Run.outcome_bind_congr (fun signed => wrap signed payer terms) hsecond
  simp only [Session.noted_noted, bind_assoc, pure_bind] at hrest
  exact ⟨_, hfirst.trans hrest⟩

/-! ## The call -/

theorem v_toMessage {sig : Signature} (h : sig.IsRaw) :
    sig.toMessage.v = 27 ∨ sig.toMessage.v = 28 := by
  obtain ⟨r, s, v⟩ := sig
  rcases h.v with hv | hv
  · obtain rfl : v = 0 := hv
    exact .inl rfl
  · obtain rfl : v = 1 := hv
    exact .inr rfl

theorem isSized_toMessage {sig : Signature} (h : sig.IsRaw) : sig.toMessage.IsSized := by
  have hr : sig.toMessage.r = sig.r := by
    unfold Signature.toMessage
    split <;> rfl
  have hs : sig.toMessage.s = sig.s := by
    unfold Signature.toMessage
    split <;> rfl
  have hn : Secp256k1.n < Bytes.limit 32 := by decide
  have hhalf : Secp256k1.halfN < Bytes.limit 32 := by decide
  have hr0 := h.r_nonneg
  have hrn := h.r_lt
  have hs0 := h.s_nonneg
  have hsle := h.s_le
  refine SignedRelayTx.isSized_of_isForwarderV ⟨?_, ?_⟩ ⟨?_, ?_⟩ (v_toMessage h) <;> omega

/-- The signature of the sender always gets into a call. -/
theorem exists_call (h : tx.IsChecked) {sig : Signature} (hraw : sig.IsRaw) :
    ∃ call, (SignedRelayTx.mk tx sig.toMessage).call = .ok call ∧
      call.contract = tx.domain.contract :=
  SignedRelayTx.exists_call_of_isSized h (isSized_toMessage hraw) (v_toMessage hraw)

theorem exists_execution_of_call (h : tx.IsChecked) {sig : Signature} (hraw : sig.IsRaw)
    {call : ExecuteCall} (hcall : (SignedRelayTx.mk tx sig.toMessage).call = .ok call) :
    call.data.length = tx.callLength ∧ (tx.callLength < Bytes.limit Abi.wordWidth →
      ∃ e raw, Execution.ofCall? call.data = some e ∧ sig.toMessage.toBytes = .ok raw ∧
        e.Carries tx raw ∧ tx.digest = .ok e.digest) := by
  obtain ⟨contract, hclen, hcontract⟩ := h.domain.contract
  obtain ⟨from', hslen, hsender⟩ := h.request.sender
  obtain ⟨recipient, hrlen, hrecipient⟩ := h.request.recipient
  have hdomain := RelayTx.domainSeparator_eq h hclen hcontract
  have hcontent := RelayTx.structHash_eq h hslen hsender hrlen hrecipient
  have hsized := isSized_toMessage hraw
  obtain ⟨encoded, hmade, hencoded⟩ :=
    SignedRelayTx.exists_call h hdomain (length_keccak _) hsized (v_toMessage hraw)
  obtain rfl := Except.ok.inj (hcall.symm.trans hmade)
  have hlen := SignedRelayTx.length_encode_arguments h (length_keccak _) hencoded
  refine ⟨hlen, fun hfit => ?_⟩
  rw [← hlen] at hfit
  have hread := SignedRelayTx.ofCall?_of_encode (length_keccak _) (length_keccakText tx.requestType)
    hslen hsender hrlen hrecipient hencoded hfit
  exact ⟨_, _, hread, Signature.toBytes_eq hsized, ⟨hslen, hsender, hrlen, hrecipient, rfl, rfl,
    rfl, rfl, rfl, hdomain, rfl, rfl, rfl⟩, RelayTx.digest_eq hdomain hcontent⟩

/-! ## The transaction around the call -/

theorem bind_outer (call : ExecuteCall) (payer : Signer) (terms : GasTerms) :
    payer.bind (outer call payer terms) = outer call payer terms := by
  rw [Signer.bind]
  split
  · rfl
  · rfl

theorem exists_fields_of_outer {call : ExecuteCall} {hash : Bytes}
    (h : (outer call payer terms).signingHash = .ok hash) :
    ∃ (fields : DynamicFeeFields) (chainId : Nat), payer.chainId? = some (chainId : Int) ∧
      (outerTransaction call payer terms).Holds fields ∧
      hash = (TransactionFields.dynamicFee fields).signingHash chainId := by
  obtain ⟨bs, hbs, hhash⟩ := Except.bind_eq_ok_iff.mp h
  obtain ⟨fields, chainId, hfields, hchain, rfl⟩ := Transaction.exists_fields_of_preimage hbs
  obtain rfl := (Except.ok.inj hhash).symm
  cases hfields with
  | @dynamicFee _ fields hfields =>
    refine ⟨fields, chainId, ?_, hfields, rfl⟩
    change payer.chainValue = .int chainId at hchain
    unfold Signer.chainValue at hchain
    split at hchain
    · next n hn =>
      cases hchain
      exact hn
    · cases hchain

theorem chainId_outer {call : ExecuteCall} {chainId : Nat}
    (h : payer.chainId? = some (chainId : Int)) :
    (outer call payer terms).chainId = .int chainId := by
  change payer.chainValue = .int chainId
  rw [Signer.chainValue, h]

/-- With a raw signature, the transaction around a call is sent. -/
theorem exists_sent {call : ExecuteCall} {fields : DynamicFeeFields} {chainId : Nat}
    (hfields : (outerTransaction call payer terms).Holds fields)
    (hchain : payer.chainId? = some (chainId : Int)) {sig : Signature} (hraw : sig.IsRaw) :
    ∃ parity r s : Nat, parity < 2 ∧ r < Bytes.limit 32 ∧ s < Bytes.limit 32 ∧
      sig = ⟨r, s, parity⟩ ∧ (outer call payer terms).encodeSigned (sig.folded chainId) =
        .ok ⟨(TransactionFields.dynamicFee fields).raw chainId parity r s, sig.folded chainId⟩ := by
  have hv := hraw.v
  obtain ⟨r, hr⟩ := Int.eq_ofNat_of_zero_le hraw.r_nonneg
  obtain ⟨s, hs⟩ := Int.eq_ofNat_of_zero_le hraw.s_nonneg
  obtain ⟨parity, hparity, hlt⟩ : ∃ parity : Nat, sig.v = parity ∧ parity < 2 := by
    rcases hv with hv | hv
    · exact ⟨0, hv, by decide⟩
    · exact ⟨1, hv, by decide⟩
  have horder : Secp256k1.n < Bytes.limit 32 := by decide
  have hhalf : Secp256k1.halfN < Bytes.limit 32 := by decide
  have hrn := hraw.r_lt
  have hsle := hraw.s_le
  refine ⟨parity, r, s, hlt, by omega, by omega, ?_, Transaction.encodeSigned_folded
    (.dynamicFee hfields) (chainId_outer hchain) hlt hparity hr hs⟩
  rw [← hr, ← hs, ← hparity]

/-- The fields of the transaction weigh what its call and its numbers weigh. -/
theorem Fits.fields (h : Fits tx payer terms) {call : ExecuteCall} {fields : DynamicFeeFields}
    {chainId : Nat} (hchain : payer.chainId? = some (chainId : Int))
    (hfields : (outerTransaction call payer terms).Holds fields)
    (hlen : call.data.length = tx.callLength) (hrecipient : fields.recipient.length = Address.width) :
    (TransactionFields.dynamicFee fields).Fits chainId := by
  have hvalue : fields.value = 0 := Int.ofNat.inj (Value.int.inj hfields.value).symm
  have haccess : fields.accessList = [] := List.forall₂_nil_left_iff.mp hfields.accessList
  have hdata : fields.data = call.data := (Value.bytes.inj hfields.data).symm
  have hnonce : terms.nonce = .int fields.nonce := hfields.nonce
  have hpriority : terms.maxPriorityFee = .int fields.maxPriorityFee := hfields.maxPriorityFee
  have hmax : terms.maxFee = .int fields.maxFee := hfields.maxFee
  have hgas : terms.gasLimit = .int fields.gas := hfields.gas
  have hwidth : Address.width = 20 := rfl
  simp only [Fits, Signer.chainValue, hchain, hnonce, hpriority, hmax, hgas, List.map_cons,
    List.map_nil, numberWidth, Int.toNat_natCast, List.sum_cons, List.sum_nil] at h
  simp only [TransactionFields.Fits, TransactionFields.signedItems, DynamicFeeFields.items, hvalue,
    haccess, hdata, hlen, Rlp.weightAll, Rlp.weight_ofNat, Rlp.Item.weight, hrecipient,
    List.map_nil]
  have hzero : Bytes.widthOf 0 = 0 := rfl
  omega

theorem isComplete_of_sent (h : tx.IsChecked) {sig payerSig : Signature} (hraw : sig.IsRaw)
    {call : ExecuteCall} (hcall : (SignedRelayTx.mk tx sig.toMessage).call = .ok call)
    {fields : DynamicFeeFields} {chainId parity r s : Nat}
    (hchain : payer.chainId? = some (chainId : Int))
    (hfields : (outerTransaction call payer terms).Holds fields) (hparity : parity < 2)
    (hr : r < Bytes.limit 32) (hs : s < Bytes.limit 32) (hsig : payerSig = ⟨r, s, parity⟩)
    (hrecover : payerSig.recover ((TransactionFields.dynamicFee fields).signingHash chainId) =
      .ok payer.publicKey) :
    IsComplete ⟨⟨tx, sig.toMessage⟩, call, outerTransaction call payer terms,
      ⟨(TransactionFields.dynamicFee fields).raw chainId parity r s, payerSig.folded chainId⟩⟩
      tx payer terms := by
  obtain ⟨hlen, hread⟩ := exists_execution_of_call h hraw hcall
  refine ⟨rfl, fun hfits => ?_, hlen, hread⟩
  obtain ⟨contract, hclen, hcontract⟩ := h.domain.contract
  obtain ⟨call', hmade, hto⟩ := exists_call h hraw
  obtain rfl := Except.ok.inj (hcall.symm.trans hmade)
  have hrecipient : fields.recipient = contract := by
    have hread := hfields.recipient
    change Transaction.addressBytes (.text call.contract) = .ok fields.recipient at hread
    rw [hto, hcontract, Transaction.addressBytes, Address.ofValue_render hclen] at hread
    exact (Except.ok.inj hread).symm
    all_goals simp
  have hwidth : fields.recipient.length = Address.width := by rw [hrecipient, hclen]
  have hcounted := (hfits.fields hchain hfields hlen hwidth).length_raw_lt
    (Nat.lt_trans hparity (by decide)) hr hs
  have hsent := SentRecord.ofRaw?_raw (Transaction.Holds.dynamicFee hfields).isSized hparity hcounted
  subst hsig
  exact ⟨_, fields, hsent, {
    shape := rfl
    chainId := hchain
    recipient_length := hwidth
    recipient := by rw [hrecipient, hcontract]
    value := Int.ofNat.inj (Value.int.inj hfields.value).symm
    gas := hfields.gas
    nonce := hfields.nonce
    maxFee := hfields.maxFee
    maxPriorityFee := hfields.maxPriorityFee
    accessList := List.forall₂_nil_left_iff.mp hfields.accessList
    data := (Value.bytes.inj hfields.data).symm
    signature := rfl
    recover := hrecover }⟩

/-! ## The gas payer -/

section Send

variable {call : ExecuteCall} {hash : Bytes}

theorem outcome_send_refused {e : Error} (houter : (outer call payer terms).signingHash = .error e)
    (session : Session) :
    (payer.send (outer call payer terms)).outcome session = (.error e, session) := by
  rw [Signer.send_eq, bind_outer, houter]
  rfl

theorem outcome_send_failed {e : Error} (houter : (outer call payer terms).signingHash = .ok hash)
    (hsign : (payer.signDigest hash).outcome session = (.error e, after)) :
    (payer.send (outer call payer terms)).outcome session = (.error e, after) := by
  rw [Signer.send_eq, bind_outer, houter]
  exact (Run.outcome_bind_ok (Run.outcome_lift _ _)).trans (Run.outcome_bind_error hsign)

theorem outcome_send_signed {sig : Signature} {chainId : Nat}
    (houter : (outer call payer terms).signingHash = .ok hash)
    (hsign : (payer.signDigest hash).outcome session = (.ok sig, after))
    (hchain : payer.chainId? = some (chainId : Int)) :
    (payer.send (outer call payer terms)).outcome session =
      ((outer call payer terms).encodeLogged (sig.folded chainId), after) := by
  have hfold := Signature.fold_toMessage (Signer.isRaw_of_signDigest hsign).v chainId
  rw [Signer.send_eq, bind_outer, houter]
  refine (Run.outcome_bind_ok (Run.outcome_lift _ _)).trans ((Run.outcome_bind_ok hsign).trans ?_)
  simp only [chainId_outer hchain, Value.asInteger?, Option.getD_some, hfold]
  exact (Run.outcome_bind_ok (Run.outcome_lift _ _)).trans (Run.outcome_lift _ _)

end Send

/-- How it ends once the sender has signed. -/
theorem course_of_signed (h : tx.IsChecked) (hrecovers : payer.Recovers) (terms : GasTerms)
    (sender : Signer) (digest : Bytes) {sig : Signature} (hraw : sig.IsRaw) (session : Session) :
    ∃ asks after result, (wrap ⟨tx, sig.toMessage⟩ payer terms).outcome session = (result, after) ∧
      Asked session asks after ∧
      Course tx sender payer terms digest (⟨sender, digest, .ok sig⟩ :: asks) result ∧
      (∀ a ∈ asks, a.digest.length = Error.digestWidth) ∧
      ∀ relayed, result = .ok relayed → IsComplete relayed tx payer terms := by
  obtain ⟨call, hcall, -⟩ := exists_call h hraw
  have hlift : (liftM (SignedRelayTx.mk tx sig.toMessage).call : Run ExecuteCall).outcome session =
      (.ok call, session) := by
    rw [hcall]
    rfl
  cases houter : (outer call payer terms).signingHash with
  | error e =>
    -- The gas payer is not asked for a transaction that cannot be hashed.
    have hsend := outcome_send_refused houter session
    exact ⟨[], session, .error e, (Run.outcome_bind_ok hlift).trans (Run.outcome_bind_error hsend),
      .nil session, .outerRefused hcall houter, by simp, by simp⟩
  | ok hash =>
    obtain ⟨fields, chainId, hchain, hfields, hhash⟩ := exists_fields_of_outer houter
    have hlen : hash.length = Error.digestWidth := hhash ▸ length_keccak _
    rcases hsign : (payer.signDigest hash).outcome session with ⟨e | payerSig, after⟩
    · have hsend := outcome_send_failed houter hsign
      exact ⟨[⟨payer, hash, .error e⟩], after, .error e,
        (Run.outcome_bind_ok hlift).trans (Run.outcome_bind_error hsend), .cons hsign (.nil after),
        .payerFailed e hcall houter, by simpa using hlen, by simp⟩
    -- The fields that were hashed are the ones that are sent, so none of them is refused now.
    · obtain ⟨parity, r, s, hparity, hr, hs, hsig, hencoded⟩ :=
        exists_sent hfields hchain (Signer.isRaw_of_signDigest hsign)
      have hsend := outcome_send_signed houter hsign hchain
      rcases Nat.lt_or_ge chainId Text.writeLimit with hlt | hlong
      · rw [Transaction.encodeLogged_of_lt (chainId_outer hchain) hlt, hencoded] at hsend
        have hrecover := hrecovers session hash payerSig after hsign
        rw [hhash] at hrecover
        refine ⟨[⟨payer, hash, .ok payerSig⟩], after, _,
          (Run.outcome_bind_ok hlift).trans (Run.outcome_bind_ok hsend), .cons hsign (.nil after),
          .done hcall houter hchain hlt hencoded, by simpa using hlen, ?_⟩
        rintro relayed hrelayed
        obtain rfl := Except.ok.inj hrelayed
        exact isComplete_of_sent h hraw hcall hchain hfields hparity hr hs hsig hrecover
      · rw [Transaction.encodeLogged_of_long (chainId_outer hchain) hlong hencoded] at hsend
        exact ⟨[⟨payer, hash, .ok payerSig⟩], after, _,
          (Run.outcome_bind_ok hlift).trans (Run.outcome_bind_error hsend),
          .cons hsign (.nil after), .logFailed hcall houter hchain hlong, by simpa using hlen,
          by simp⟩

/-- What comes of asking a signer is what its backend does in the session. -/
theorem Asked.outcome_eq {before between after : Session} {a : Asking} {rest : List Asking}
    {result : Except Error Signature} (h : Asked before (a :: rest) after)
    (hsign : (a.signer.signDigest a.digest).outcome before = (result, between)) :
    a.outcome = result ∧ Asked between rest after := by
  cases h with
  | cons hask hrest =>
    obtain ⟨hresult, rfl⟩ := Prod.mk.inj (hask.symm.trans hsign)
    exact ⟨hresult, hrest⟩

/-- What the key service is sent is one request for each time that a signer of it is asked. -/
theorem Asked.follows {before after : Session} {asks : List Asking} (h : Asked before asks after)
    (hdigests : ∀ a ∈ asks, a.digest.length = Error.digestWidth) :
    before.Follows after (asks.flatMap Asking.requests) := by
  induction h with
  | nil session => exact .refl session
  | @cons before between after a rest hask _ ih =>
    obtain ⟨ha, hrest⟩ := List.forall_mem_cons.mp hdigests
    have hfollows := a.signer.follows_signDigest ha before
    rw [hask] at hfollows
    exact hfollows.trans (ih hrest)

end Relay

namespace RelayBuilder

/-- **Relaying through a gas payer takes one of five courses.** Whatever the backends of both
parties do, the sender is asked to sign the digest of the relay transaction, and the gas payer is
asked at most once after that, for the hash of the transaction around the call. The first error is
that of the whole, and the key service is sent nothing but one request for each time that a signer
of it is asked. At the end, what is sent tells everything that was made. -/
theorem exists_course_of_build {builder : RelayBuilder} {tx : RelayTx}
    (h : builder.build = .ok tx) (sender : Signer) {payer : Signer} (hrecovers : payer.Recovers)
    (terms : GasTerms) (session : Session) :
    ∃ digest notices asks after result, tx.digest = .ok digest ∧
      (Relay.viaGasPayer tx sender payer terms).outcome session = (result, after) ∧
      Relay.Asked (session.noted notices) asks after ∧
      session.Follows after (asks.flatMap Relay.Asking.requests) ∧
      Relay.Course tx sender payer terms digest asks result ∧
      ∀ relayed, result = .ok relayed → Relay.IsComplete relayed tx payer terms := by
  have hchecked := isChecked_of_build h
  obtain ⟨digest, hdigest, hlen⟩ := hchecked.exists_digest
  obtain ⟨notices, houtcome⟩ := Relay.outcome_viaGasPayer hdigest sender payer terms session
  have hnoted := session.follows_noted notices
  rcases hsign : (sender.signDigest digest).outcome (session.noted notices) with ⟨e | sig, between⟩
  · have hfailed := houtcome.trans (Run.outcome_bind_error hsign)
    have hasked : Relay.Asked (session.noted notices) [⟨sender, digest, .error e⟩] between :=
      .cons hsign (.nil between)
    exact ⟨digest, notices, _, between, .error e, hdigest, hfailed, hasked,
      hnoted.trans (hasked.follows (by simpa using hlen)), .senderFailed e, by simp⟩
  · obtain ⟨asks, after, result, hwrap, hasked, hcourse, hdigests, hcomplete⟩ :=
      Relay.course_of_signed hchecked hrecovers terms sender digest
        (Signer.isRaw_of_signDigest hsign) between
    have hall : Relay.Asked (session.noted notices) (⟨sender, digest, .ok sig⟩ :: asks) after :=
      .cons hsign hasked
    have hdone := houtcome.trans ((Run.outcome_bind_ok hsign).trans hwrap)
    exact ⟨digest, notices, _, after, result, hdigest, hdone, hall,
      hnoted.trans (hall.follows (List.forall_mem_cons.mpr ⟨hlen, hdigests⟩)), hcourse, hcomplete⟩

/-! ## A sample -/

/-- A sender whose key signs the digest of the sample with the scalars one and one. -/
def sampleSender : Signer where
  backend := .service ⟨"sender", ServiceKey.defaultRegion⟩ {
    x := 3793100664286480927522798135243783069261567766671975255180629080583788412341
    y := 94525098293698367498388912589192829070361070046401444799155273106215904038397 }
  chainId? := none

/-- A gas payer whose key signs the transaction around that call with the same scalars. -/
def samplePayer : Signer where
  backend := .service ⟨"payer", ServiceKey.defaultRegion⟩ {
    x := 48132229081217395102353469291277447585607814256927173067822176746039582858700
    y := 17007200726764051962924259788556443800248766826360590813721342655038585904201 }
  chainId? := some 1

def sampleTerms : GasTerms := ⟨.int 0, .int 200000, .int 2, .int 1⟩

/-- The digest of the sample. -/
def sampleDigest : Bytes := [
  140, 66, 102, 73, 163, 240, 204, 37, 148, 73, 49, 32, 240, 75, 105, 129, 164, 234, 114, 210, 102,
  246, 253, 158, 226, 252, 51, 108, 15, 169, 190, 203]

/-- The hash of the domain of the sample. -/
def sampleDomain : Bytes :=
  keccak (Relay.domainLayout "Forwarder" "1" 1 (List.replicate 20 1))

/-- The call of the sample with the signature of its sender. -/
def sampleCall : ExecuteCall where
  contract := Address.render (List.replicate 20 1)
  data := Relay.executeSelector ++ Abi.layout [
    ⟨true, Abi.layout (SignedRelayTx.requestParts RelayTx.sample.request (List.replicate 20 2)
      (List.replicate 20 3))⟩,
    ⟨false, sampleDomain⟩, ⟨false, RelayTx.sample.requestTypeHash⟩, ⟨true, Abi.numberWord 0⟩,
    ⟨true, Abi.numberWord 65 ++
      Bytes.padToMultiple Abi.wordWidth (Signature.mk 1 1 27).layout⟩]

/-- The hash of the transaction around that call. -/
def sampleHash : Bytes := [
  150, 252, 238, 114, 221, 2, 153, 105, 191, 204, 221, 114, 185, 27, 208, 222, 177, 193, 213, 238,
  179, 12, 94, 145, 235, 129, 98, 48, 62, 243, 89, 252]

/-- One answer with a signature for each party. -/
def sampleSession : Session where
  answers := List.replicate 2 (.given [("Signature", .bytes Signer.sampleSignature)])

theorem domainSeparator_sample : RelayTx.sample.domainSeparator = .ok sampleDomain :=
  RelayTx.domainSeparator_eq (isChecked_of_build build_sample) rfl rfl

theorem digest_sample : RelayTx.sample.digest = .ok sampleDigest := by
  have hslen : (List.replicate 20 2 : Bytes).length = Address.width := rfl
  have hrlen : (List.replicate 20 3 : Bytes).length = Address.width := rfl
  have hcontent := RelayTx.structHash_eq (isChecked_of_build build_sample) hslen rfl hrlen rfl
  rw [RelayTx.digest_eq domainSeparator_sample hcontent]
  simp only [Message.structured, sampleDomain, Relay.domainLayout, Relay.requestLayout,
    RelayTx.requestTypeHash, Relay.requestTypeHash, keccakText, Keccak.Plain.keccak_eq]
  exact congrArg Except.ok (by decide +kernel)

theorem call_sample : (SignedRelayTx.mk .sample ⟨1, 1, 27⟩).call = .ok sampleCall := by
  have h := isChecked_of_build build_sample
  have hsig : (Signature.mk 1 1 27).IsSized :=
    SignedRelayTx.isSized_of_isForwarderV ⟨by decide, by decide⟩ ⟨by decide, by decide⟩ (.inl rfl)
  have hdomain : sampleDomain.length = Abi.wordWidth := length_keccak _
  obtain ⟨encoded, hcall, hencoded⟩ :=
    SignedRelayTx.exists_call h domainSeparator_sample hdomain hsig (.inl rfl)
  have hslen : (List.replicate 20 2 : Bytes).length = Address.width := rfl
  have hrlen : (List.replicate 20 3 : Bytes).length = Address.width := rfl
  have hlayout := SignedRelayTx.encode_arguments_eq h hdomain hslen rfl hrlen rfl
    (Signature.mk 1 1 27).layout
  obtain rfl := Except.ok.inj (hencoded.symm.trans hlayout)
  exact hcall

theorem signingHash_sample :
    (Relay.outer sampleCall samplePayer sampleTerms).signingHash = .ok sampleHash := by
  have hfields : (Relay.outerTransaction sampleCall samplePayer sampleTerms).Holds
      ⟨0, 1, 2, 200000, List.replicate 20 1, 0, sampleCall.data, []⟩ := {
    nonce := rfl
    maxPriorityFee := rfl
    maxFee := rfl
    gas := rfl
    recipient := by
      change Transaction.addressBytes (.text (Address.render (List.replicate 20 1))) = _
      rw [Transaction.addressBytes, Address.ofValue_render rfl]
      · rfl
      · simp
    value := rfl
    data := rfl
    accessList := .nil }
  rw [Relay.outer, Transaction.signingHash_eq (.dynamicFee hfields) rfl]
  simp only [TransactionFields.signingHash, TransactionFields.preimage, DynamicFeeFields.items,
    sampleCall, Relay.executeSelector, sampleDomain, Relay.domainLayout, RelayTx.requestTypeHash,
    Relay.requestTypeHash, keccakText, Keccak.Plain.keccak_eq]
  exact congrArg Except.ok (by decide +kernel)

theorem outcome_sampleSender (session : Session)
    (h : session.answers.head? = sampleSession.answers.head?) :
    (sampleSender.signDigest sampleDigest).outcome session =
      (.ok ⟨1, 1, 0⟩, session.asked (.sign "sender" sampleDigest)) :=
  Signer.outcome_signDigest_ones rfl (by decide +kernel) h

theorem outcome_samplePayer (session : Session)
    (h : session.answers.head? = sampleSession.answers.head?) :
    (samplePayer.signDigest sampleHash).outcome session =
      (.ok ⟨1, 1, 0⟩, session.asked (.sign "payer" sampleHash)) :=
  Signer.outcome_signDigest_ones rfl (by decide +kernel) h

/-- Both parties of the sample get their signatures, so it is sent, and is read back. -/
theorem exists_course_of_sample :
    ∃ relayed after, (Relay.viaGasPayer .sample sampleSender samplePayer sampleTerms).outcome
        sampleSession = (.ok relayed, after) ∧
      after.requests = [.sign "sender" sampleDigest, .sign "payer" sampleHash] ∧
      (∃ record fields, SentRecord.ofRaw? relayed.sent.raw = some record ∧
        Relay.IsOuter record fields relayed .sample samplePayer sampleTerms) ∧
      ∃ e raw, Relay.Execution.ofCall? relayed.call.data = some e ∧
        relayed.senderSignature.toBytes = .ok raw ∧ e.Carries .sample raw ∧
        RelayTx.sample.digest = .ok e.digest := by
  have hrecovers : samplePayer.Recovers := Signer.recovers_service _ _ _
  obtain ⟨digest, notices, asks, after, result, hdigest, houtcome, hasked, hfollows, hcourse,
    hcomplete⟩ := exists_course_of_build build_sample sampleSender hrecovers sampleTerms sampleSession
  obtain rfl : sampleDigest = digest := Except.ok.inj (digest_sample.symm.trans hdigest)
  have hsender := outcome_sampleSender (sampleSession.noted notices) rfl
  have hpayer := outcome_samplePayer
    ((sampleSession.noted notices).asked (.sign "sender" sampleDigest)) rfl
  have hcall {sig : Signature} {call : ExecuteCall} (hsig : sig = ⟨1, 1, 0⟩)
      (h : (SignedRelayTx.mk .sample sig.toMessage).call = .ok call) : call = sampleCall := by
    subst hsig
    exact Except.ok.inj (h.symm.trans call_sample)
  cases hcourse with
  | senderFailed e => cases (hasked.outcome_eq hsender).1
  | outerRefused hmade houter =>
    obtain rfl := hcall (Except.ok.inj (hasked.outcome_eq hsender).1) hmade
    cases houter.symm.trans signingHash_sample
  | payerFailed e hmade houter =>
    obtain ⟨hsig, hrest⟩ := hasked.outcome_eq hsender
    obtain rfl := hcall (Except.ok.inj hsig) hmade
    obtain rfl := Except.ok.inj (houter.symm.trans signingHash_sample)
    cases (hrest.outcome_eq hpayer).1
  | @logFailed _ _ _ _ chainId hmade houter hchain hlong =>
    obtain rfl : 1 = chainId := Int.ofNat.inj (Option.some.inj hchain)
    exact absurd (Text.lt_writeLimit (by decide)) (Nat.not_lt.mpr hlong)
  | done hmade houter hchain hlt hsent =>
    obtain rfl := hcall (Except.ok.inj (hasked.outcome_eq hsender).1) hmade
    obtain rfl := Except.ok.inj (houter.symm.trans signingHash_sample)
    have h := hcomplete _ rfl
    have hfits : Relay.Fits .sample samplePayer sampleTerms := by
      unfold Relay.Fits
      decide +kernel
    have hcount : RelayTx.sample.callLength < Bytes.limit Abi.wordWidth := by decide +kernel
    exact ⟨_, after, houtcome, hfollows.requests, h.outer hfits, h.call hcount⟩

end RelayBuilder

end MetaTx
