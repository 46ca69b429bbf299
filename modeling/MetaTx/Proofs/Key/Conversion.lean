import MetaTx.Key.Public
import MetaTx.Proofs.Error
import MetaTx.Proofs.Key.Signature
import MetaTx.Transaction

/-!
# Runs of conversions

A raw signature can be moved between the conventions of `v` any number of times. Whatever the order
of the moves, it stands in one of three places only: as it was given, in the message convention, or
folded with the chain id of the first fold, which no later move takes out again. The scalars and the
recovery id are the same in all three, and with them the key that is recovered and the bytes of a
dynamic fee transaction. A second fold is refused, with an error that tells the chain id if that has
not too many digits.
-/

namespace MetaTx

/-! ## Runs -/

/-- A move of a signature into another convention. -/
inductive Conversion
  | toMessage
  | fold (chainId : Nat)

namespace Conversion

def apply (sig : Signature) : Conversion → Except Error Signature
  | toMessage => .ok sig.toMessage
  | fold chainId => sig.fold chainId

/-- What the next conversion is applied to. One that fails leaves the signature as it was. -/
def next (sig : Signature) (c : Conversion) : Signature :=
  match c.apply sig with
  | .ok converted => converted
  | .error _ => sig

/-- The latest signature that came out of a run. -/
def latest (sig : Signature) (run : List Conversion) : Signature := run.foldl next sig

def chainId? : Conversion → Option Nat
  | toMessage => none
  | fold chainId => some chainId

/-- The chain id of the first fold of a run. -/
def folded? (run : List Conversion) : Option Nat := run.findSome? chainId?

theorem folded?_fold (chainId : Nat) (run : List Conversion) :
    folded? (.fold chainId :: run) = some chainId := rfl

end Conversion

namespace Signature

variable {sig now : Signature} {carried? : Option Nat}

/-! ## The three places -/

/-- Where a raw signature can come to stand, with the chain id that it carries there. -/
inductive Stands (sig : Signature) : Option Nat → Signature → Prop
  | raw : Stands sig none sig
  | message : Stands sig none sig.toMessage
  | folded (chainId : Nat) : Stands sig (some chainId) (sig.folded chainId)

theorem toMessage_toMessage (hv : sig.v = 0 ∨ sig.v = 1) :
    sig.toMessage.toMessage = sig.toMessage := by
  obtain ⟨r, s, v⟩ := sig
  rcases hv with rfl | rfl <;> rfl

theorem toMessage_folded (hv : sig.v = 0 ∨ sig.v = 1) (chainId : Nat) :
    (sig.folded chainId).toMessage = sig.folded chainId := by
  have hle : messageBase ≤ (sig.folded chainId).v := by
    show (27 : Int) ≤ sig.v + chainId * 2 + 35
    omega
  rw [toMessage, if_pos hle]

theorem fold_raw (hv : sig.v = 0 ∨ sig.v = 1) (chainId : Nat) :
    sig.fold chainId = .ok (sig.folded chainId) := by
  obtain ⟨r, s, v⟩ := sig
  rcases hv with rfl | rfl <;> rfl

/-- The refusal of a second fold tells the chain id of the first one. -/
theorem fold_folded (hv : sig.v = 0 ∨ sig.v = 1) (carried chainId : Nat) :
    (sig.folded carried).fold chainId =
      .error ((Error.signing (.folded carried)).telling (.int carried)) := by
  rw [fold, chainId?_folded hv]

theorem fold_folded_of_lt (hv : sig.v = 0 ∨ sig.v = 1) {carried : Nat}
    (hlt : carried < Text.writeLimit) (chainId : Nat) :
    (sig.folded carried).fold chainId = .error (.signing (.folded carried)) := by
  rw [fold_folded hv, Error.telling_of_writable (by omega)]

theorem fold_folded_of_long (hv : sig.v = 0 ∨ sig.v = 1) {carried : Nat}
    (hlong : Text.writeLimit ≤ carried) (chainId : Nat) :
    (sig.folded carried).fold chainId = .error (.fault .longInteger) := by
  rw [fold_folded hv, Error.telling_of_long (by omega)]

/-- A conversion leads from one of the places to one of them. -/
theorem Stands.next (hv : sig.v = 0 ∨ sig.v = 1) (h : sig.Stands carried? now) (c : Conversion) :
    sig.Stands (carried?.or c.chainId?) (c.next now) := by
  cases h with
  | raw =>
    cases c with
    | toMessage => exact .message
    | fold chainId =>
      have hnext : Conversion.next sig (.fold chainId) = sig.folded chainId := by
        rw [Conversion.next, Conversion.apply, fold_raw hv]
      rw [hnext]
      exact .folded chainId
  | message =>
    cases c with
    | toMessage =>
      show sig.Stands none sig.toMessage.toMessage
      rw [toMessage_toMessage hv]
      exact .message
    | fold chainId =>
      have hnext : Conversion.next sig.toMessage (.fold chainId) = sig.folded chainId := by
        rw [Conversion.next, Conversion.apply, fold_toMessage hv]
      rw [hnext]
      exact .folded chainId
  | folded carried =>
    cases c with
    | toMessage =>
      show sig.Stands (some carried) (sig.folded carried).toMessage
      rw [toMessage_folded hv]
      exact .folded carried
    | fold chainId =>
      have hnext : Conversion.next (sig.folded carried) (.fold chainId) = sig.folded carried := by
        rw [Conversion.next, Conversion.apply, fold_folded hv]
      rw [hnext]
      exact .folded carried

theorem stands_latest (hv : sig.v = 0 ∨ sig.v = 1) (run : List Conversion) :
    sig.Stands (Conversion.folded? run) (Conversion.latest sig run) := by
  -- A run is taken apart at its end, where the latest signature is made.
  induction run using List.reverseRecOn with
  | nil => exact .raw
  | append_singleton run c ih =>
    have hfolded : Conversion.folded? (run ++ [c]) =
        (Conversion.folded? run).or c.chainId? := by
      simp [Conversion.folded?, List.findSome?_append]
    have hlatest : Conversion.latest sig (run ++ [c]) = c.next (Conversion.latest sig run) := by
      simp [Conversion.latest]
    rw [hfolded, hlatest]
    exact ih.next hv c

/-! ## What is the same in all places -/

namespace Stands

theorem r_eq (h : sig.Stands carried? now) : now.r = sig.r := by
  cases h with
  | raw => rfl
  | message =>
    unfold toMessage
    split <;> rfl
  | folded chainId => rfl

theorem s_eq (h : sig.Stands carried? now) : now.s = sig.s := by
  cases h with
  | raw => rfl
  | message =>
    unfold toMessage
    split <;> rfl
  | folded chainId => rfl

theorem recoveryId_eq (hv : sig.v = 0 ∨ sig.v = 1) (h : sig.Stands carried? now) :
    now.recoveryId = sig.recoveryId := by
  have hraw : sig.recoveryId = sig.v ∧ sig.toMessage.recoveryId = sig.v := by
    obtain ⟨r, s, v⟩ := sig
    rcases hv with rfl | rfl <;> exact ⟨rfl, rfl⟩
  cases h with
  | raw => rfl
  | message => rw [hraw.1, hraw.2]
  | folded chainId => rw [recoveryId_folded hv, hraw.1]

theorem isFolded_eq (hv : sig.v = 0 ∨ sig.v = 1) (h : sig.Stands carried? now) :
    now.isFolded = carried?.isSome := by
  have hplain : sig.isFolded = false ∧ sig.toMessage.isFolded = false := by
    obtain ⟨r, s, v⟩ := sig
    rcases hv with rfl | rfl <;> exact ⟨rfl, rfl⟩
  cases h with
  | raw => exact hplain.1
  | message => exact hplain.2
  | folded chainId => exact isFolded_folded hv chainId

theorem chainId?_eq (hv : sig.v = 0 ∨ sig.v = 1) (h : sig.Stands carried? now) :
    now.chainId? = carried?.map Int.ofNat := by
  have hfolded := h.isFolded_eq hv
  cases h with
  | raw =>
    rw [chainId?, hfolded]
    rfl
  | message =>
    rw [chainId?, hfolded]
    rfl
  | folded chainId => exact chainId?_folded hv chainId

theorem fold_eq (hv : sig.v = 0 ∨ sig.v = 1) (h : sig.Stands none now) (chainId : Nat) :
    now.fold chainId = .ok (sig.folded chainId) := by
  cases h with
  | raw => exact fold_raw hv chainId
  | message => exact fold_toMessage hv chainId

theorem eq_folded {carried : Nat} (h : sig.Stands (some carried) now) :
    now = sig.folded carried := by
  cases h
  rfl

end Stands

/-! ## What is made of a signature -/

theorem recover_congr (hr : now.r = sig.r) (hs : now.s = sig.s)
    (hid : now.recoveryId = sig.recoveryId) (digest : Bytes) :
    now.recover digest = sig.recover digest := by
  unfold recover
  rw [hr, hs, hid]

theorem raw_encodeSigned_congr (hr : now.r = sig.r) (hs : now.s = sig.s)
    (hid : now.recoveryId = sig.recoveryId) (tx : DynamicFeeTransaction) :
    ((Transaction.dynamicFee tx).encodeSigned now).map SignedTransaction.raw =
      ((Transaction.dynamicFee tx).encodeSigned sig).map SignedTransaction.raw := by
  unfold Transaction.encodeSigned
  dsimp only
  rw [hr, hs, hid]
  cases Transaction.dynamicFeeItem tx [.int sig.recoveryId, .int sig.r, .int sig.s] <;> rfl

end Signature

/-! ## The result -/

namespace Conversion

open Signature

/-- **A run of conversions moves nothing but the convention.** After any run, and so at every place
of a longer one, the latest signature has the scalars and the recovery id of the one that was given,
and recovers to the same key and sends the same bytes. It is folded if the run had a fold, with the
chain id of the first one: that one succeeds, and whatever comes later changes nothing any more.
A later fold is refused with a signing error as long as the chain id of the first one can be
written; if it has too many digits, the refusal ends in a fault. -/
theorem latest_keeps {sig : Signature} (hv : sig.v = 0 ∨ sig.v = 1) (run : List Conversion) :
    (latest sig run).r = sig.r ∧ (latest sig run).s = sig.s ∧
    (latest sig run).recoveryId = sig.recoveryId ∧
    (latest sig run).isFolded = (folded? run).isSome ∧
    (latest sig run).chainId? = (folded? run).map Int.ofNat ∧
    (folded? run = none → ∀ chainId,
      (fold chainId).apply (latest sig run) = .ok (sig.folded chainId)) ∧
    (∀ carried, folded? run = some carried →
      toMessage.apply (latest sig run) = .ok (latest sig run) ∧
      ∀ chainId,
        (carried < Text.writeLimit →
          (fold chainId).apply (latest sig run) = .error (.signing (.folded carried))) ∧
        (Text.writeLimit ≤ carried →
          (fold chainId).apply (latest sig run) = .error (.fault .longInteger))) ∧
    (∀ digest, (latest sig run).recover digest = sig.recover digest) ∧
    ∀ tx : DynamicFeeTransaction,
      ((Transaction.dynamicFee tx).encodeSigned (latest sig run)).map SignedTransaction.raw =
        ((Transaction.dynamicFee tx).encodeSigned sig).map SignedTransaction.raw := by
  have h := stands_latest hv run
  have hr := h.r_eq
  have hs := h.s_eq
  have hid := h.recoveryId_eq hv
  refine ⟨hr, hs, hid, h.isFolded_eq hv, h.chainId?_eq hv, ?_, ?_, recover_congr hr hs hid,
    raw_encodeSigned_congr hr hs hid⟩
  · intro hnone chainId
    rw [hnone] at h
    exact h.fold_eq hv chainId
  · intro carried hcarried
    rw [hcarried] at h
    rw [h.eq_folded]
    constructor
    · exact congrArg Except.ok (toMessage_folded hv carried)
    · intro chainId
      exact ⟨fun hlt => fold_folded_of_lt hv hlt chainId,
        fun hlong => fold_folded_of_long hv hlong chainId⟩

/-- A signature of two ones that is folded twice, with a move to the message convention between. -/
theorem latest_keeps_sample :
    folded? [.fold 0, .toMessage, .fold 5] = some 0 ∧
    (latest ⟨1, 1, 1⟩ [.fold 0, .toMessage, .fold 5]).recoveryId = 1 ∧
    (latest ⟨1, 1, 1⟩ [.fold 0, .toMessage, .fold 5]).chainId? = some 0 ∧
    (fold 7).apply (latest ⟨1, 1, 1⟩ [.fold 0, .toMessage, .fold 5]) =
      .error (.signing (.folded 0)) := by
  obtain ⟨-, -, hid, -, hchain, -, hlater, -, -⟩ :=
    latest_keeps (.inr rfl : (Signature.mk 1 1 1).v = 0 ∨ _) [.fold 0, .toMessage, .fold 5]
  have hlt : 0 < Text.writeLimit := Text.lt_writeLimit (by decide)
  exact ⟨rfl, hid, hchain, ((hlater 0 rfl).2 7).1 hlt⟩

/-- Once a chain id with too many digits is folded in, the next fold is refused with no signing
error. -/
theorem fold_longChain :
    folded? [.fold Text.writeLimit] = some Text.writeLimit ∧
    (fold 1).apply (latest ⟨1, 1, 0⟩ [.fold Text.writeLimit]) = .error (.fault .longInteger) ∧
    (Error.fault .longInteger).isA .signing = false := by
  have hfolded := folded?_fold Text.writeLimit []
  have hstands := stands_latest (.inl rfl : (Signature.mk 1 1 0).v = 0 ∨ _) [.fold Text.writeLimit]
  rw [hfolded] at hstands
  have hlatest := hstands.eq_folded
  refine ⟨hfolded, ?_, rfl⟩
  rw [hlatest]
  exact fold_folded_of_long (.inl rfl) (Nat.le_refl _) 1

end Conversion

end MetaTx
