import MetaTx.Proofs.Service.Signing
import MetaTx.Proofs.Signer.Job

/-!
# What signers give

A signature that a signer gives for a digest was made with the key that it holds, or was read from
an answer of the key service. Either way it is raw, and its `s` is in the lower half of the order.
-/

namespace MetaTx

theorem PrivateKey.isRaw_of_signDigest {key : PrivateKey} {digest : Bytes} {sig : Signature}
    (h : key.signDigest digest = .ok sig) : sig.IsRaw := by
  unfold signDigest at h
  split at h
  · split at h
    · exact Signature.isRaw_of_ofNative h
    · cases h
  · cases h

theorem Signature.IsLowBy.isRaw {sig : Signature} {key : PublicKey} {digest : Bytes}
    (h : sig.IsLowBy key digest) : sig.IsRaw where
  v := h.v
  r_nonneg := h.r_nonneg
  r_lt := h.r_lt
  s_nonneg := h.s_nonneg
  s_le := h.s_le

namespace Signer

variable {signer : Signer} {digest : Bytes} {session after : Session} {sig : Signature}

/-- Where a signature comes from. -/
theorem signDigest_cases (h : (signer.signDigest digest).outcome session = (.ok sig, after)) :
    (∃ key, signer.backend = .held key ∧ key.signDigest digest = .ok sig) ∨
      ∃ key publicKey, signer.backend = .service key publicKey ∧ sig.IsLowBy publicKey digest := by
  rw [signDigest_eq] at h
  obtain ⟨checked, between, hchecked, h⟩ := Run.exists_of_outcome_bind h
  obtain rfl : digest = checked := by
    have hok : checkDigest digest = .ok checked := congrArg Prod.fst hchecked
    unfold checkDigest at hok
    split at hok
    · cases hok
    · exact Except.ok.inj hok
  cases hbackend : signer.backend with
  | held key =>
    rw [hbackend] at h
    exact .inl ⟨key, rfl, congrArg Prod.fst h⟩
  | service key publicKey =>
    rw [hbackend] at h
    obtain ⟨encoded, _, -, hread⟩ := Run.exists_of_outcome_bind h
    exact .inr ⟨key, publicKey, rfl, ServiceKey.isLowBy_of_readSignature (congrArg Prod.fst hread)⟩

theorem isRaw_of_signDigest (h : (signer.signDigest digest).outcome session = (.ok sig, after)) :
    sig.IsRaw := by
  rcases signDigest_cases h with ⟨key, -, hsig⟩ | ⟨key, publicKey, -, hlow⟩
  · exact PrivateKey.isRaw_of_signDigest hsig
  · exact hlow.isRaw

/-- Whatever signature a signer gives for a digest recovers to its key. -/
def Recovers (signer : Signer) : Prop :=
  ∀ session digest sig after, (signer.signDigest digest).outcome session = (.ok sig, after) →
    sig.recover digest = .ok signer.publicKey

/-- What the key service answers is checked. -/
theorem recovers_service (key : ServiceKey) (publicKey : PublicKey) (chainId? : Option Int) :
    Recovers ⟨.service key publicKey, chainId?⟩ := by
  intro session digest sig after h
  rcases signDigest_cases h with ⟨key', hbackend, -⟩ | ⟨key', publicKey', hbackend, hlow⟩
  · cases hbackend
  · cases hbackend
    exact hlow.recover

end Signer

end MetaTx
