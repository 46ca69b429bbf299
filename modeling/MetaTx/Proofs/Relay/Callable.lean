import MetaTx.Proofs.Error
import MetaTx.Proofs.Relay.Execution

/-!
# Which signatures go into a call

A relay transaction that was built can always be laid out. So it is the signature alone that decides
whether there is a call: its `v` is looked at first and refused with the kind of encoding errors, and
then its scalars have to fit 32 bytes each. A scalar that does not is a fault of no kind, for it is
told before the layout of the arguments is looked at. So is a `v` that has too many digits for the
refusal to tell it.
-/

namespace MetaTx

namespace SignedRelayTx

open Relay

variable {tx : RelayTx} {sig : Signature}

theorem isForwarderV_iff {v : Int} : isForwarderV v = true ↔ v = 27 ∨ v = 28 := by
  simp [isForwarderV, Signature.messageBase]

theorem call_of_otherV (hv : ¬(sig.v = 27 ∨ sig.v = 28)) :
    (SignedRelayTx.mk tx sig).call =
      .error ((Error.encoding (.forwarderV sig.v)).telling (.int sig.v)) := by
  have hrefused : isForwarderV sig.v = false := by
    rw [← Bool.not_eq_true, isForwarderV_iff]
    exact hv
  simp only [call, hrefused]
  rfl

theorem call_of_otherV_of_lt (hv : ¬(sig.v = 27 ∨ sig.v = 28))
    (hlt : sig.v.natAbs < Text.writeLimit) :
    (SignedRelayTx.mk tx sig).call = .error (.encoding (.forwarderV sig.v)) := by
  rw [call_of_otherV hv, Error.telling_of_writable hlt]

theorem call_of_longV (hlong : Text.writeLimit ≤ sig.v.natAbs) :
    (SignedRelayTx.mk tx sig).call = .error (.fault .longInteger) := by
  have hlimit : 28 < Text.writeLimit := Text.lt_writeLimit (by decide)
  rw [call_of_otherV (by omega), Error.telling_of_long hlong]

/-- The bytes of the signature are made before the arguments are laid out, and what is wrong with them
is passed on as it is. -/
theorem call_of_wideScalar (h : tx.IsChecked) (hv : sig.v = 27 ∨ sig.v = 28)
    (hwide : ¬(Field.IsUint256 sig.r ∧ Field.IsUint256 sig.s)) :
    (SignedRelayTx.mk tx sig).call = .error (.fault .wideScalar) := by
  obtain ⟨domain, hdomain, -⟩ := h.exists_domain
  have hbytes : sig.toBytes = .error (.fault .wideScalar) :=
    Signature.toBytes_eq_error (by omega) hwide
  have harguments : (SignedRelayTx.mk tx sig).arguments = .error (.fault .wideScalar) := by
    simp only [arguments, hdomain, hbytes]
    rfl
  simp only [call, isForwarderV_iff.mpr hv, harguments]
  rfl

end SignedRelayTx

namespace RelayBuilder

open Relay

/-- **What becomes of a call.** With a `v` other than 27 and 28 the call of a built relay transaction is
refused with an encoding error that tells it, if it has not too many digits for that. With one of these
there is a call if both scalars are from zero to below 2 ^ 256. If one is not, or if `v` cannot be told,
there is a fault, which those who wait for encoding errors do not catch. -/
theorem call_outcome {b : RelayBuilder} {tx : RelayTx} (h : b.build = .ok tx) (sig : Signature) :
    (¬(sig.v = 27 ∨ sig.v = 28) → sig.v.natAbs < Text.writeLimit →
      (SignedRelayTx.mk tx sig).call = .error (.encoding (.forwarderV sig.v))) ∧
    (Text.writeLimit ≤ sig.v.natAbs →
      (SignedRelayTx.mk tx sig).call = .error (.fault .longInteger)) ∧
    (sig.v = 27 ∨ sig.v = 28 → Field.IsUint256 sig.r ∧ Field.IsUint256 sig.s →
      ∃ call, (SignedRelayTx.mk tx sig).call = .ok call ∧ call.contract = tx.domain.contract) ∧
    (sig.v = 27 ∨ sig.v = 28 → ¬(Field.IsUint256 sig.r ∧ Field.IsUint256 sig.s) →
      (SignedRelayTx.mk tx sig).call = .error (.fault .wideScalar)) ∧
    ((∃ e, (SignedRelayTx.mk tx sig).call = .error e ∧ e.isA .encoding = false) ↔
      (sig.v = 27 ∨ sig.v = 28) ∧ ¬(Field.IsUint256 sig.r ∧ Field.IsUint256 sig.s) ∨
        Text.writeLimit ≤ sig.v.natAbs) := by
  have hchecked := isChecked_of_build h
  have hcall : sig.v = 27 ∨ sig.v = 28 → Field.IsUint256 sig.r ∧ Field.IsUint256 sig.s →
      ∃ call, (SignedRelayTx.mk tx sig).call = .ok call ∧ call.contract = tx.domain.contract :=
    fun hv hscalars => SignedRelayTx.exists_call_of_isSized hchecked
      (SignedRelayTx.isSized_of_isForwarderV hscalars.1 hscalars.2 hv) hv
  refine ⟨SignedRelayTx.call_of_otherV_of_lt, SignedRelayTx.call_of_longV, hcall,
    SignedRelayTx.call_of_wideScalar hchecked, ?_⟩
  constructor
  · rintro ⟨e, he, hkind⟩
    by_cases hv : sig.v = 27 ∨ sig.v = 28
    · refine .inl ⟨hv, fun hscalars => ?_⟩
      obtain ⟨call, hcall, -⟩ := hcall hv hscalars
      rw [hcall] at he
      cases he
    · refine .inr (Nat.not_lt.mp fun hlt => ?_)
      rw [SignedRelayTx.call_of_otherV_of_lt hv hlt] at he
      obtain rfl := Except.error.inj he
      rw [Error.isA_encoding] at hkind
      cases hkind
  · rintro (⟨hv, hwide⟩ | hlong)
    · exact ⟨_, SignedRelayTx.call_of_wideScalar hchecked hv hwide, rfl⟩
    · exact ⟨_, SignedRelayTx.call_of_longV hlong, rfl⟩

theorem call_outcome_samples :
    (∃ call, (SignedRelayTx.mk .sample ⟨1, 1, 27⟩).call = .ok call ∧
      call.contract = RelayTx.sample.domain.contract) ∧
    (SignedRelayTx.mk .sample ⟨-1, 1, 0⟩).call = .error (.encoding (.forwarderV 0)) ∧
    (SignedRelayTx.mk .sample ⟨1, Bytes.limit 32, 28⟩).call = .error (.fault .wideScalar) := by
  obtain ⟨-, -, hcall, -, -⟩ := call_outcome build_sample ⟨1, 1, 27⟩
  obtain ⟨hother, -⟩ := call_outcome build_sample ⟨-1, 1, 0⟩
  obtain ⟨-, -, -, hfault, -⟩ := call_outcome build_sample ⟨1, Bytes.limit 32, 28⟩
  refine ⟨hcall (.inl rfl) ⟨⟨by decide, by decide⟩, by decide, by decide⟩,
    hother (by decide) (Text.lt_writeLimit (by decide)), hfault (.inr rfl) fun hscalars => ?_⟩
  exact absurd hscalars.2.2 (by decide)

/-- A scalar below zero is a fault of no kind. -/
theorem call_negativeScalar :
    (SignedRelayTx.mk .sample ⟨-1, 1, 27⟩).call = .error (.fault .wideScalar) ∧
      (Error.fault .wideScalar).isA .encoding = false := by
  have hwide : ¬(Field.IsUint256 (-1) ∧ Field.IsUint256 1) := fun h => absurd h.1.1 (by decide)
  exact ⟨SignedRelayTx.call_of_wideScalar (isChecked_of_build build_sample) (.inl rfl) hwide, rfl⟩

end RelayBuilder

end MetaTx
