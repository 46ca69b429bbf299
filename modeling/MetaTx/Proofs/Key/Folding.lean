import MetaTx.Proofs.Key.Conversion
import MetaTx.Proofs.Key.Recovery

/-!
# Recovery ids of two bits and the folded convention

A raw `v` can be any recovery id from zero to three, of which the upper bit tells that the abscissa of
the nonce point exceeds the order. The folded convention has room for the lower bit only. The upper
one spills over into the chain id: it is told as one more, and the recovery id as two less. Nothing
can be recovered from the raw signature, but the folded one may well recover to a key.
-/

namespace MetaTx.Signature

variable {sig : Signature}

/-- Nothing is recovered under an id that is no parity. -/
theorem recover_eq_error (hid : sig.recoveryId ≠ 0 ∧ sig.recoveryId ≠ 1) (digest : Bytes) :
    sig.recover digest = .error (.signing .recovery) := by
  refine if_neg fun h => ?_
  obtain ⟨-, -, -, -, hparity⟩ := isNative_iff.mp h.1
  omega

/-- **Folding keeps the lower bit of a recovery id only.** A raw signature with a recovery id from
zero to three can always be moved to the message convention and folded. The chain id and the
recovery id that are told then are those that were put in exactly if the recovery id is a parity;
then the same key is recovered as well. With the upper bit set, the chain id is one more and the
recovery id two less, and where nothing was recovered before, the folded signature recovers to what
the lower bit alone leads to. -/
theorem folding_keeps_iff (hlow : 0 ≤ sig.v) (hhigh : sig.v ≤ 3) (chainId : Nat) :
    ∃ moved, sig.toMessage.fold chainId = .ok moved ∧
      moved.chainId? = some (chainId + sig.v / 2) ∧ moved.recoveryId = sig.v % 2 ∧
      (moved.chainId? = some (chainId : Int) ∧ moved.recoveryId = sig.v ↔ sig.v ≤ 1) ∧
      (sig.v ≤ 1 → ∀ digest, moved.recover digest = sig.recover digest) ∧
      (2 ≤ sig.v → ∀ digest, sig.recover digest = .error (.signing .recovery) ∧
        moved.recover digest = (Signature.mk sig.r sig.s (sig.v - 2)).recover digest) := by
  have hchain := chainId?_folded_eq hlow chainId
  have hfolded := recoveryId_folded_eq hlow chainId
  have hraw := recoveryId_eq_v hhigh
  refine ⟨sig.folded chainId, fold_toMessage_of_le hlow hhigh chainId, hchain, hfolded, ?_, ?_, ?_⟩
  · rw [hchain, hfolded, Option.some.injEq]
    omega
  · intro hparity
    exact recover_congr (by rfl) (by rfl) (by omega)
  · intro hupper digest
    have hlower : (Signature.mk sig.r sig.s (sig.v - 2)).recoveryId = sig.v - 2 :=
      recoveryId_raw (by omega)
    exact ⟨recover_eq_error (by omega) digest,
      recover_congr (by rfl) (by rfl) (by omega) digest⟩

theorem folding_keeps_iff_samples :
    (∃ moved, (Signature.mk 1 1 1).toMessage.fold 5 = .ok moved ∧
      moved.chainId? = some 5 ∧ moved.recoveryId = 1) ∧
    ∃ moved, (Signature.mk 1 1 2).toMessage.fold 5 = .ok moved ∧
      moved.chainId? = some 6 ∧ moved.recoveryId = 0 := by
  constructor
  · obtain ⟨moved, hmoved, hchain, hid, -⟩ :=
      folding_keeps_iff (by decide : 0 ≤ (Signature.mk 1 1 1).v) (by decide) 5
    exact ⟨moved, hmoved, hchain, hid⟩
  · obtain ⟨moved, hmoved, hchain, hid, -⟩ :=
      folding_keeps_iff (by decide : 0 ≤ (Signature.mk 1 1 2).v) (by decide) 5
    exact ⟨moved, hmoved, hchain, hid⟩

/-- Under the recovery id two, the scalars one and one recover to nothing. Folded with the chain id
one, they carry the chain id two and recover to a key. -/
theorem folding_keeps_not :
    (Signature.mk 1 1 2).toMessage.fold 1 = .ok ⟨1, 1, 39⟩ ∧
      (Signature.mk 1 1 39).chainId? = some 2 ∧ (Signature.mk 1 1 39).recoveryId = 0 ∧
      (Signature.mk 1 1 2).recover Signer.sampleDigest = .error (.signing .recovery) ∧
      (Signature.mk 1 1 39).recover Signer.sampleDigest = .ok Signer.sampleKey := by
  refine ⟨rfl, rfl, rfl, recover_eq_error (by decide) _, ?_⟩
  exact (recover_congr (by rfl) (by rfl) (by rfl) _).trans Signer.recover_sample

end MetaTx.Signature
