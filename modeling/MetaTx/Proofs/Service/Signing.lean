import MetaTx.Proofs.Error
import MetaTx.Proofs.Except
import MetaTx.Proofs.Key.Signature
import MetaTx.Proofs.Service.Session
import MetaTx.Signer

/-!
# Signatures of the key service

The key service answers with bytes that are not to be trusted. Scalars are moved into the lower
half of the order before anything is checked about them, so integers of any size get there, and
some of them turn negative. What keeps them out is that nothing is recovered from scalars outside
of the order, and that the key which is recovered is compared.
-/

namespace MetaTx

/-! ## Recovery -/

namespace Signature

/-- Nothing is recovered from scalars outside of the order. -/
theorem isNative_of_recover {sig : Signature} {digest : Bytes} {key : PublicKey}
    (h : sig.recover digest = .ok key) : isNative sig.r sig.s sig.recoveryId = true := by
  unfold recover at h
  split at h
  · next hchecked => exact hchecked.1
  · cases h

/-- A raw signature in the lower half of the order that is by a key. -/
structure IsLowBy (sig : Signature) (key : PublicKey) (digest : Bytes) : Prop where
  v : sig.v = 0 ∨ sig.v = 1
  r_nonneg : 0 ≤ sig.r
  r_lt : sig.r < Secp256k1.n
  s_nonneg : 0 ≤ sig.s
  s_le : sig.s ≤ Secp256k1.n / 2
  recover : sig.recover digest = .ok key

end Signature

/-! ## Answers -/

namespace ServiceKey

variable {publicKey : PublicKey} {digest encoded : Bytes}

theorem recover_of_recoveryId? {r s id : Int} (h : recoveryId? publicKey digest r s = some id) :
    (id = 0 ∨ id = 1) ∧ (Signature.mk r s id).recover digest = .ok publicKey := by
  have hmem := List.mem_of_find?_eq_some h
  have hfound := List.find?_some h
  refine ⟨by simpa using hmem, ?_⟩
  cases hrecover : (Signature.mk r s id).recover digest with
  | error e => rw [hrecover] at hfound; cases hfound
  | ok found =>
    rw [hrecover] at hfound
    rw [eq_of_beq hfound]

/-- A signature that is read from an answer is by the key, whatever scalars stood there. -/
theorem isLowBy_of_readSignature {sig : Signature}
    (h : readSignature publicKey digest encoded = .ok sig) : sig.IsLowBy publicKey digest := by
  obtain ⟨⟨r, s⟩, -, h⟩ := Except.bind_eq_ok_iff.mp h
  obtain ⟨id', hcanonical⟩ := Signature.canonicalize_eq r s 0
  have hle := Signature.lower_le s
  have hhalf : (Secp256k1.halfN : Int) = Secp256k1.n / 2 := by decide
  simp only [hcanonical] at h
  -- The upper bound is that of the lower half, all others come from the recovery.
  split at h
  · next id hid =>
    cases h
    obtain ⟨hv, hrecover⟩ := recover_of_recoveryId? hid
    obtain ⟨hr0, hrn, hs0, -, -⟩ :=
      Signature.isNative_iff.mp (Signature.isNative_of_recover hrecover)
    exact ⟨hv, hr0, hrn, hs0, hhalf ▸ hle, hrecover⟩
  · cases h

/-- Scalars that the key is recovered from under some recovery id have the first such id. -/
theorem exists_recoveryId? {r s id : Int} (hid : id = 0 ∨ id = 1)
    (hrecover : (Signature.mk r s id).recover digest = .ok publicKey) :
    ∃ found, recoveryId? publicKey digest r s = some found := by
  rw [← Option.isSome_iff_exists, recoveryId?, List.find?_isSome]
  refine ⟨id, by simpa using hid, ?_⟩
  simp only [hrecover, beq_self_eq_true]

theorem readSignature_eq {r s : Nat} {id : Int} (hread : Der.signature encoded = .ok (r, s))
    (hid : recoveryId? publicKey digest r (Signature.lower s) = some id) :
    readSignature publicKey digest encoded = .ok ⟨r, Signature.lower s, id⟩ := by
  obtain ⟨id', hcanonical⟩ := Signature.canonicalize_eq r s 0
  simp only [readSignature, hread, Except.ok_bind, hcanonical, hid]
  rfl

/-- Whatever the bytes are, what refuses them is a signing error. -/
theorem isA_signing_of_readSignature {e : Error}
    (h : readSignature publicKey digest encoded = .error e) : e.isA .signing = true := by
  rcases Except.bind_eq_error_iff.mp h with h | ⟨⟨r, s⟩, -, h⟩
  · unfold Der.signature at h
    split at h
    · cases h
    · cases h
      exact Error.isA_signing .signatureDer
  · dsimp only at h
    split at h
    · cases h
    · cases h
      exact Error.isA_signing (.foreign publicKey.account)

/-- An answer with bytes for a signature ends as these bytes are read. -/
theorem outcome_signDigest {key : ServiceKey} {session : Session}
    {entries : List (String × Value)} (hanswer : session.answers.head? = some (.given entries))
    (hentry : Value.get? "Signature" entries = some (.bytes encoded)) :
    (key.signDigest publicKey digest).outcome session =
      (readSignature publicKey digest encoded, session.asked (.sign key.keyId digest)) := by
  have hask := Session.outcome_ask_given hanswer (.sign key.keyId digest)
  have hbytes : entryBytes "Signature" entries = .ok encoded := by
    rw [entryBytes, hentry]
  have hrequest : (key.requestSignature digest).outcome session =
      (.ok encoded, session.asked (.sign key.keyId digest)) := by
    refine (Run.outcome_bind_ok hask).trans ?_
    rw [hbytes]
    rfl
  exact Run.outcome_bind_ok hrequest

end ServiceKey

/-! ## Signers -/

namespace Signer

variable {key : ServiceKey} {publicKey : PublicKey} {chainId? : Option Int}

theorem outcome_signDigest_service {digest : Bytes} (hdigest : digest.length = 32)
    (session : Session) :
    (Signer.signDigest ⟨.service key publicKey, chainId?⟩ digest).outcome session =
      (key.signDigest publicKey digest).outcome session := by
  have hwidth : ¬digest.length ≠ Error.digestWidth := not_not_intro hdigest
  simp only [signDigest, if_neg hwidth]

/-- Encoded scalars, as an answer to a digest that they sign once they are lowered. -/
theorem outcome_signDigest_of_scalars {digest encoded : Bytes} {r s : Nat} {id : Int}
    (hdigest : digest.length = 32) (hscalars : Der.signature encoded = .ok (r, s))
    (hid : ServiceKey.recoveryId? publicKey digest r (Signature.lower s) = some id)
    {session : Session}
    (hanswer : session.answers.head? = some (.given [("Signature", .bytes encoded)])) :
    (Signer.signDigest ⟨.service key publicKey, chainId?⟩ digest).outcome session =
      (.ok ⟨r, Signature.lower s, id⟩, session.asked (.sign key.keyId digest)) := by
  have hread := ServiceKey.readSignature_eq hscalars hid
  refine (outcome_signDigest_service hdigest _).trans ?_
  refine (ServiceKey.outcome_signDigest hanswer rfl).trans ?_
  exact congrArg (·, session.asked (.sign key.keyId digest)) hread

/-! ## A sample -/

/-- A digest that the scalars one and one sign. -/
def sampleDigest : Bytes := [
  157, 156, 145, 242, 224, 74, 47, 183, 68, 90, 201, 137, 102, 120, 196, 153, 33, 148, 163, 129,
  210, 1, 20, 243, 204, 204, 26, 214, 103, 130, 5, 253]

/-- The key that these scalars sign the digest with. -/
def sampleKey : PublicKey where
  x := 89418950690823702322987478676653451878127796917188110370861629157348767019062
  y := 108274308588049368242422006869821633263290404250486495311221457585835304427305

def sample : Signer := ⟨.service ⟨"key", ServiceKey.defaultRegion⟩ sampleKey, some 1⟩

/-- The encoded scalars one and one. -/
def sampleSignature : Bytes := [0x30, 6, 2, 1, 1, 2, 1, 1]

def sampleSession : Session := { answers := [.given [("Signature", .bytes sampleSignature)]] }

/-- The scalars one and one, as an answer to a digest that they sign. -/
theorem outcome_signDigest_ones {digest : Bytes} (hdigest : digest.length = 32)
    (hid : ServiceKey.recoveryId? publicKey digest (1 : Nat) (Signature.lower (1 : Nat)) = some 0)
    {session : Session}
    (hanswer : session.answers.head? = some (.given [("Signature", .bytes sampleSignature)])) :
    (Signer.signDigest ⟨.service key publicKey, chainId?⟩ digest).outcome session =
      (.ok ⟨1, 1, 0⟩, session.asked (.sign key.keyId digest)) :=
  outcome_signDigest_of_scalars hdigest rfl hid hanswer

theorem recoveryId?_sample :
    ServiceKey.recoveryId? sampleKey sampleDigest (1 : Nat) (Signature.lower (1 : Nat)) =
      some 0 := by
  decide +kernel

theorem recover_sample : (Signature.mk 1 1 0).recover sampleDigest = .ok sampleKey :=
  (ServiceKey.recover_of_recoveryId? recoveryId?_sample).2

/-- **Signing through the service is fail-safe.** Whatever bytes stand in the answer, there is a
signing error, or a low signature of the digest by the key that was known before. There is a
signature whenever the key can be recovered from the lower scalars of the answer. -/
theorem signDigest_failSafe (key : ServiceKey) (publicKey : PublicKey) (chainId? : Option Int)
    {digest encoded : Bytes} {session : Session} {entries : List (String × Value)}
    (hdigest : digest.length = 32) (hanswer : session.answers.head? = some (.given entries))
    (hentry : Value.get? "Signature" entries = some (.bytes encoded)) :
    ((∃ e, (Signer.signDigest ⟨.service key publicKey, chainId?⟩ digest).outcome session =
          (.error e, session.asked (.sign key.keyId digest)) ∧ e.isA .signing = true) ∨
        ∃ sig, (Signer.signDigest ⟨.service key publicKey, chainId?⟩ digest).outcome session =
          (.ok sig, session.asked (.sign key.keyId digest)) ∧ sig.IsLowBy publicKey digest) ∧
      ∀ (r s : Nat) (id : Int), Der.signature encoded = .ok (r, s) → id = 0 ∨ id = 1 →
        (Signature.mk r (Signature.lower s) id).recover digest = .ok publicKey →
          ∃ sig, (Signer.signDigest ⟨.service key publicKey, chainId?⟩ digest).outcome session =
            (.ok sig, session.asked (.sign key.keyId digest)) := by
  rw [outcome_signDigest_service hdigest, ServiceKey.outcome_signDigest hanswer hentry]
  refine ⟨?_, fun r s id hscalars hid hrecover => ?_⟩
  · cases hread : ServiceKey.readSignature publicKey digest encoded with
    | error e => exact .inl ⟨e, rfl, ServiceKey.isA_signing_of_readSignature hread⟩
    | ok sig => exact .inr ⟨sig, rfl, ServiceKey.isLowBy_of_readSignature hread⟩
  · obtain ⟨found, hfound⟩ := ServiceKey.exists_recoveryId? hid hrecover
    rw [ServiceKey.readSignature_eq hscalars hfound]
    exact ⟨_, rfl⟩

theorem signDigest_failSafe_sample :
    ((∃ e, (sample.signDigest sampleDigest).outcome sampleSession =
          (.error e, sampleSession.asked (.sign "key" sampleDigest)) ∧ e.isA .signing = true) ∨
        ∃ sig, (sample.signDigest sampleDigest).outcome sampleSession =
          (.ok sig, sampleSession.asked (.sign "key" sampleDigest)) ∧
            sig.IsLowBy sampleKey sampleDigest) ∧
      ∃ sig, (sample.signDigest sampleDigest).outcome sampleSession =
        (.ok sig, sampleSession.asked (.sign "key" sampleDigest)) :=
  have h := signDigest_failSafe ⟨"key", ServiceKey.defaultRegion⟩ sampleKey (some 1)
    (rfl : sampleDigest.length = 32) (rfl : sampleSession.answers.head? = _)
    (rfl : Value.get? "Signature" _ = some (.bytes sampleSignature))
  ⟨h.1, h.2 1 1 0 rfl (.inl rfl) recover_sample⟩

end Signer

end MetaTx
