import MetaTx.Key.Signature
import MetaTx.Proofs.Bytes.Number

/-!
# Signatures in bytes and conventions

A signature is laid out in 65 bytes if its scalars have 256 bits and `v` has 8. A raw signature
takes a chain id into `v`, and both the recovery id and the chain id can be told from there. The
lower half of the order is bounded above, whatever integer is moved there, but not below.
-/

namespace MetaTx.Signature

variable {sig : Signature}

/-! ## Layout -/

/-- What a signature is to be like for its layout. -/
structure IsSized (sig : Signature) : Prop where
  r_nonneg : 0 ≤ sig.r
  r_lt : sig.r < Bytes.limit 32
  s_nonneg : 0 ≤ sig.s
  s_lt : sig.s < Bytes.limit 32
  v_nonneg : 0 ≤ sig.v
  v_le : sig.v ≤ 255

/-- The bytes of the layout. -/
def layout (sig : Signature) : Bytes :=
  Bytes.ofNat 32 sig.r.toNat ++ Bytes.ofNat 32 sig.s.toNat ++ [sig.v.toNat.toUInt8]

theorem length_layout (sig : Signature) : sig.layout.length = width := by
  simp [layout]
  rfl

theorem scalarBytes_eq {n : Int} (hlow : 0 ≤ n) (hhigh : n < Bytes.limit 32) :
    scalarBytes n = .ok (Bytes.ofNat 32 n.toNat) :=
  if_pos ⟨hlow, hhigh⟩

theorem scalarBytes_eq_error {n : Int} (h : ¬(0 ≤ n ∧ n < Bytes.limit 32)) :
    scalarBytes n = .error (.fault .wideScalar) :=
  if_neg h

theorem toBytes_eq (h : sig.IsSized) : sig.toBytes = .ok sig.layout := by
  have hwide : ¬255 < sig.v := by
    have := h.v_le
    omega
  have hneg : ¬sig.v < 0 := by
    have := h.v_nonneg
    omega
  simp only [toBytes, scalarBytes_eq h.r_nonneg h.r_lt, scalarBytes_eq h.s_nonneg h.s_lt, hwide,
    hneg, ↓reduceIte]
  rfl

/-- Either scalar is refused alike, whatever the rest of `v`. -/
theorem toBytes_eq_error (hv : sig.v ≤ 255) (h : ¬((0 ≤ sig.r ∧ sig.r < Bytes.limit 32) ∧
    0 ≤ sig.s ∧ sig.s < Bytes.limit 32)) : sig.toBytes = .error (.fault .wideScalar) := by
  have hnarrow : ¬255 < sig.v := by omega
  by_cases hr : 0 ≤ sig.r ∧ sig.r < Bytes.limit 32
  · have hs : ¬(0 ≤ sig.s ∧ sig.s < Bytes.limit 32) := fun hs => h ⟨hr, hs⟩
    simp only [toBytes, scalarBytes_eq hr.1 hr.2, scalarBytes_eq_error hs, hnarrow, ↓reduceIte]
    rfl
  · simp only [toBytes, scalarBytes_eq_error hr, hnarrow, ↓reduceIte]
    rfl

theorem ofBytes_layout (h : sig.IsSized) : ofBytes sig.layout = .ok sig := by
  obtain ⟨r, hr⟩ := Int.eq_ofNat_of_zero_le h.r_nonneg
  obtain ⟨s, hs⟩ := Int.eq_ofNat_of_zero_le h.s_nonneg
  obtain ⟨v, hv⟩ := Int.eq_ofNat_of_zero_le h.v_nonneg
  have hrlt := h.r_lt
  have hslt := h.s_lt
  have hvle := h.v_le
  have hrread : Bytes.toNat (Bytes.ofNat 32 sig.r.toNat) = r := by
    rw [hr, Int.toNat_natCast, Bytes.toNat_ofNat (by omega)]
  have hsread : Bytes.toNat (Bytes.ofNat 32 sig.s.toNat) = s := by
    rw [hs, Int.toNat_natCast, Bytes.toNat_ofNat (by omega)]
  have hvread : Bytes.toNat [sig.v.toNat.toUInt8] = v := by
    have hmod : v % 256 = v := Nat.mod_eq_of_lt (by omega)
    rw [hv, Int.toNat_natCast]
    simp [Bytes.toNat, hmod]
  have hfront : sig.layout.take 32 = Bytes.ofNat 32 sig.r.toNat := by
    rw [layout, List.append_assoc, List.take_left' (Bytes.length_ofNat _ _)]
  have hmiddle : (sig.layout.drop 32).take 32 = Bytes.ofNat 32 sig.s.toNat := by
    rw [layout, List.append_assoc, List.drop_left' (Bytes.length_ofNat _ _),
      List.take_left' (Bytes.length_ofNat _ _)]
  have hback : sig.layout.drop 64 = [sig.v.toNat.toUInt8] := by
    rw [layout, List.drop_left']
    rw [List.length_append, Bytes.length_ofNat, Bytes.length_ofNat]
  rw [ofBytes, if_pos (length_layout sig), hfront, hmiddle, hback, hrread, hsread, hvread, ← hr, ← hs,
    ← hv]

/-! ## The number `v` -/

theorem recoveryId_cases (sig : Signature) :
    35 ≤ sig.v ∧ sig.recoveryId = (sig.v - 35) % 2 ∨
      27 ≤ sig.v ∧ sig.v < 35 ∧ sig.recoveryId = sig.v - 27 ∨
      sig.v < 27 ∧ sig.recoveryId = sig.v := by
  unfold recoveryId isFolded foldedBase messageBase
  by_cases hfolded : 35 ≤ sig.v
  · simp only [hfolded, decide_true, ↓reduceIte]
    exact .inl ⟨trivial, rfl⟩
  · by_cases hmessage : 27 ≤ sig.v
    · simp [hfolded, hmessage]
      omega
    · simp [hfolded, hmessage]
      omega

/-- The recovery id is a parity in the folded convention, and for two values in either other one. -/
theorem isParity_iff : sig.recoveryId = 0 ∨ sig.recoveryId = 1 ↔
    sig.v = 0 ∨ sig.v = 1 ∨ sig.v = 27 ∨ sig.v = 28 ∨ 35 ≤ sig.v := by
  have hid := sig.recoveryId_cases
  omega

theorem recoveryId_nonneg_iff : 0 ≤ sig.recoveryId ↔ 0 ≤ sig.v := by
  have hid := sig.recoveryId_cases
  omega

theorem recoveryId_lt : sig.recoveryId < 27 := by
  have hid := sig.recoveryId_cases
  omega

theorem chainId?_eq_some_iff {chainId : Int} :
    sig.chainId? = some chainId ↔ sig.v = 35 + 2 * chainId ∧ 0 ≤ chainId ∨
      sig.v = 36 + 2 * chainId ∧ 0 ≤ chainId := by
  unfold chainId? isFolded foldedBase
  rw [Int.fdiv_eq_ediv]
  by_cases hfolded : 35 ≤ sig.v
  · simp [hfolded]
    omega
  · simp [hfolded]
    omega

/-- A raw signature with a chain id folded into it. -/
def folded (sig : Signature) (chainId : Nat) : Signature :=
  { sig with v := sig.v + chainId * 2 + foldedBase }

theorem fold_toMessage_of_le (hlow : 0 ≤ sig.v) (hhigh : sig.v ≤ 3) (chainId : Nat) :
    sig.toMessage.fold chainId = .ok (sig.folded chainId) := by
  have hmoved : sig.toMessage = { sig with v := sig.v + messageBase } := by
    rw [toMessage, if_neg]
    show ¬(27 : Int) ≤ sig.v
    omega
  have hplain : ¬foldedBase ≤ sig.v + messageBase := by
    show ¬(35 : Int) ≤ sig.v + 27
    omega
  have hmessage : messageBase ≤ sig.v + messageBase := by omega
  have hid : sig.v + messageBase - messageBase = sig.v := by omega
  simp only [hmoved, fold, chainId?, isFolded, recoveryId, hplain, hmessage, decide_false,
    Bool.false_eq_true, ↓reduceIte, hid]
  rfl

theorem isFolded_folded_of_nonneg (hlow : 0 ≤ sig.v) (chainId : Nat) :
    (sig.folded chainId).isFolded = true := by
  have hle : foldedBase ≤ sig.v + chainId * 2 + foldedBase := by omega
  exact decide_eq_true hle

/-- The upper bit is told as part of the chain id. -/
theorem chainId?_folded_eq (hlow : 0 ≤ sig.v) (chainId : Nat) :
    (sig.folded chainId).chainId? = some (chainId + sig.v / 2) := by
  have hv : (sig.folded chainId).v = sig.v + chainId * 2 + 35 := rfl
  exact chainId?_eq_some_iff.mpr (by omega)

theorem recoveryId_folded_eq (hlow : 0 ≤ sig.v) (chainId : Nat) :
    (sig.folded chainId).recoveryId = sig.v % 2 := by
  have hv : (sig.folded chainId).v = sig.v + chainId * 2 + 35 := rfl
  have hid := (sig.folded chainId).recoveryId_cases
  omega

theorem recoveryId_eq_v (hhigh : sig.v ≤ 3) : sig.recoveryId = sig.v := by
  have hid := sig.recoveryId_cases
  omega

/-! ### Parities -/

theorem fold_toMessage (hv : sig.v = 0 ∨ sig.v = 1) (chainId : Nat) :
    sig.toMessage.fold chainId = .ok (sig.folded chainId) :=
  fold_toMessage_of_le (by omega) (by omega) chainId

theorem isFolded_folded (hv : sig.v = 0 ∨ sig.v = 1) (chainId : Nat) :
    (sig.folded chainId).isFolded = true :=
  isFolded_folded_of_nonneg (by omega) chainId

theorem chainId?_folded (hv : sig.v = 0 ∨ sig.v = 1) (chainId : Nat) :
    (sig.folded chainId).chainId? = some (chainId : Int) := by
  rw [chainId?_folded_eq (by omega), Option.some.injEq]
  omega

theorem recoveryId_folded (hv : sig.v = 0 ∨ sig.v = 1) (chainId : Nat) :
    (sig.folded chainId).recoveryId = sig.v := by
  rw [recoveryId_folded_eq (by omega)]
  omega

/-! ## The lower half -/

/-- A scalar moved into the lower half of the order. -/
def lower (s : Int) : Int := if (Secp256k1.halfN : Int) < s then Secp256k1.n - s else s

theorem lower_le (s : Int) : lower s ≤ Secp256k1.halfN := by
  have hn := Secp256k1.n_eq_halfN
  unfold lower
  split <;> omega

theorem canonicalize_eq (r s id : Int) : ∃ id', canonicalize r s id = (r, lower s, id') := by
  unfold canonicalize lower
  split
  · exact ⟨_, rfl⟩
  · exact ⟨_, rfl⟩

theorem isNative_iff {r s id : Int} : isNative r s id = true ↔
    0 ≤ r ∧ r < Secp256k1.n ∧ 0 ≤ s ∧ s < Secp256k1.n ∧ (id = 0 ∨ id = 1) := by
  simp [isNative, and_assoc]

/-- A signature as signers give it: in the raw convention, with scalars of the curve and `s` in the
lower half. -/
structure IsRaw (sig : Signature) : Prop where
  v : sig.v = 0 ∨ sig.v = 1
  r_nonneg : 0 ≤ sig.r
  r_lt : sig.r < Secp256k1.n
  s_nonneg : 0 ≤ sig.s
  s_le : sig.s ≤ Secp256k1.halfN

/-- A signature of the curve is raw once its `s` is moved. -/
theorem isRaw_of_ofNative {r s id : Int} (h : ofNative r s id = .ok sig) : sig.IsRaw := by
  unfold ofNative at h
  split at h
  · next hnative =>
    obtain ⟨hr0, hrn, hs0, hsn, hid⟩ := isNative_iff.mp hnative
    have hn := Secp256k1.n_eq_halfN
    by_cases hhigh : (Secp256k1.halfN : Int) < s
    · simp only [canonicalize, if_pos hhigh] at h
      cases h
      refine ⟨?_, hr0, hrn, ?_, ?_⟩
      · rcases hid with rfl | rfl
        · exact .inr rfl
        · exact .inl rfl
      · show 0 ≤ Secp256k1.n - s
        omega
      · show Secp256k1.n - s ≤ Secp256k1.halfN
        omega
    · simp only [canonicalize, if_neg hhigh] at h
      cases h
      exact ⟨hid, hr0, hrn, hs0, Int.not_lt.mp hhigh⟩
  · cases h

end MetaTx.Signature
