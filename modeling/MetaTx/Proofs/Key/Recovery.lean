import MetaTx.Proofs.Curve.Ecdsa
import MetaTx.Proofs.Key.Public
import MetaTx.Proofs.Service.Interchange

/-!
# Keys that signatures recover to

A signature in the raw convention goes with its mirror, whose `s` is negated and whose `v` has the
other parity: both recover to the same key. So moving `s` into the lower half of the order loses
nothing, and a signature of a private key recovers to its public key.

Verification looks at the scalars alone. It takes every key that is recovered from them, whatever
`v` is and whichever half `s` is in. It takes no other key, except where a nonce point can have an
abscissa beyond the order, which the two parities do not lead to.
-/

namespace MetaTx

open Secp256k1

namespace Signature

/-! ## Mirrors -/

theorem recoveryId_raw {r s v : Int} (hv : v = 0 ∨ v = 1) : (Signature.mk r s v).recoveryId = v :=
  recoveryId_eq_v (show v ≤ 3 by omega)

theorem flipParity_cases {v : Int} (hv : v = 0 ∨ v = 1) :
    (flipParity v = 0 ∨ flipParity v = 1) ∧ (flipParity v == 1) = !(v == 1) := by
  rcases hv with rfl | rfl <;> decide

/-- The mirror of a signature recovers to the same key. -/
theorem recover_mirror {r s v : Int} (hpos : 0 < s) (hlt : s < n) (hv : v = 0 ∨ v = 1)
    (digest : Bytes) :
    (Signature.mk r (n - s) (flipParity v)).recover digest = (Signature.mk r s v).recover digest := by
  obtain ⟨hflip, hodd⟩ := flipParity_cases hv
  have hnative : isNative r (n - s) (flipParity v) = isNative r s v := by
    rw [Bool.eq_iff_iff, isNative_iff, isNative_iff]
    constructor
    · rintro ⟨hr, hrn, -, -, -⟩
      exact ⟨hr, hrn, hpos.le, hlt, hv⟩
    · rintro ⟨hr, hrn, -, -, -⟩
      exact ⟨hr, hrn, by omega, by omega, hflip⟩
  have hsub : ((n : Int) - s).toNat = n - s.toNat := by omega
  have hsame := Ecdsa.recover?_neg (r := r.toNat) (s := s.toNat) (by omega) (by omega) (v == 1) digest
  simp only [recover, recoveryId_raw hv, recoveryId_raw hflip, hnative, hsub, hodd, hsame]

/-- Moving `s` into the lower half keeps the key that a signature recovers to. -/
theorem exists_ofNative {r s v : Int} (hr : 0 ≤ r) (hrn : r < n) (hs : 0 < s) (hsn : s < n)
    (hv : v = 0 ∨ v = 1) :
    ∃ sig, ofNative r s v = .ok sig ∧
      ∀ digest, sig.recover digest = (Signature.mk r s v).recover digest := by
  have hnative : isNative r s v = true := isNative_iff.mpr ⟨hr, hrn, hs.le, hsn, hv⟩
  by_cases hhigh : (halfN : Int) < s
  · refine ⟨⟨r, n - s, flipParity v⟩, ?_, recover_mirror hs hsn hv⟩
    simp only [ofNative, if_pos hnative, canonicalize, if_pos hhigh]
  · refine ⟨⟨r, s, v⟩, ?_, fun _ => rfl⟩
    simp only [ofNative, if_pos hnative, canonicalize, if_neg hhigh]

/-- A raw signature of the curve recovers to the key of the point that is recovered. -/
theorem recover_raw {r s v : Int} {digest : Bytes} {point : Point} (hnative : isNative r s v = true)
    (hdigest : digest.length = Error.digestWidth)
    (hpoint : Ecdsa.recover? r.toNat s.toNat (v == 1) digest = some point) :
    (Signature.mk r s v).recover digest = .ok (.ofPoint point) := by
  obtain ⟨-, -, -, -, hv⟩ := isNative_iff.mp hnative
  simp only [recover, recoveryId_raw hv, hnative, hdigest, and_self, ↓reduceIte, hpoint]

/-- A signature that recovers to a key has scalars of the curve, and what is recovered from them is
the point of the key. -/
theorem exists_of_recover {sig : Signature} {digest : Bytes} {key : PublicKey}
    (h : sig.recover digest = .ok key) :
    isNative sig.r sig.s sig.recoveryId = true ∧ digest.length = Error.digestWidth ∧
      ∃ point, Ecdsa.recover? sig.r.toNat sig.s.toNat (sig.recoveryId == 1) digest = some point ∧
        key = .ofPoint point := by
  unfold recover at h
  split at h
  · next hchecked =>
    split at h
    · next point hpoint => exact ⟨hchecked.1, hchecked.2, point, hpoint, (Except.ok.inj h).symm⟩
    · cases h
  · cases h

end Signature

/-! ## Signing -/

namespace PrivateKey

/-- A signature of a key holds a pair of scalars that signs the digest, with a recovery id below
two. -/
theorem exists_of_signDigest {key : PrivateKey} {digest : Bytes} {sig : Signature}
    (h : key.signDigest digest = .ok sig) :
    digest.length = Error.digestWidth ∧
      ∃ pair, Ecdsa.Signs key.scalar (Bytes.toNat digest % n) pair ∧ pair.id < 2 ∧
        sig = ⟨pair.r, pair.s, pair.id⟩ := by
  unfold signDigest at h
  split at h
  · next hdigest =>
    refine ⟨hdigest, ?_⟩
    split at h
    · next pair hpair =>
      have hsigns := Ecdsa.signs_of_sign? hpair
      have hlow : ¬(halfN : Int) < pair.s := by
        have hle := hsigns.s_le
        omega
      unfold Signature.ofNative at h
      split at h
      · next hnative =>
        obtain ⟨-, -, -, -, hid⟩ := Signature.isNative_iff.mp hnative
        simp only [Signature.canonicalize, if_neg hlow] at h
        exact ⟨pair, hsigns, by omega, (Except.ok.inj h).symm⟩
      · cases h
    · cases h
  · cases h

theorem recover_of_signs {key : PrivateKey} {digest : Bytes} {pair : Ecdsa.Pair}
    (hdigest : digest.length = Error.digestWidth)
    (h : Ecdsa.Signs key.scalar (Bytes.toNat digest % n) pair) (hid : pair.id < 2) :
    (Signature.mk pair.r pair.s pair.id).recover digest = .ok key.toPublic := by
  have hv : (pair.id : Int) = 0 ∨ (pair.id : Int) = 1 := by omega
  have hrlt := h.r_lt
  have hsle := h.s_le
  have hhalf := n_eq_halfN
  have hnative : Signature.isNative pair.r pair.s pair.id = true :=
    Signature.isNative_iff.mpr ⟨by omega, by omega, by omega, by omega, hv⟩
  have hodd : ((pair.id : Int) == 1) = (pair.id == 1) := by
    rw [Bool.eq_iff_iff, beq_iff_eq, beq_iff_eq]
    omega
  have hpoint := h.recover? hid key.pos key.lt_order
  rw [← hodd] at hpoint
  exact Signature.recover_raw hnative hdigest hpoint

/-- **A signature recovers to the key that made it.** A signature of a private key has its scalars
in their range, `s` in the lower half and a parity for `v`, and recovers to the public key. Every
signature with scalars of the curve other than zero and a parity for `v` can be moved into the lower
half, and over every digest it recovers to the same key there. -/
theorem signatures_recover :
    (∀ (key : PrivateKey) (digest : Bytes) (sig : Signature), key.signDigest digest = .ok sig →
      0 < sig.r ∧ sig.r < n ∧ 0 < sig.s ∧ sig.s ≤ n / 2 ∧ (sig.v = 0 ∨ sig.v = 1) ∧
        sig.recover digest = .ok key.toPublic) ∧
    ∀ r s v : Int, 0 < r → r < n → 0 < s → s < n → v = 0 ∨ v = 1 →
      ∃ sig, Signature.ofNative r s v = .ok sig ∧
        ∀ digest, sig.recover digest = (Signature.mk r s v).recover digest := by
  refine ⟨fun key digest sig hsig => ?_, fun r s v hr hrn hs hsn hv =>
    Signature.exists_ofNative hr.le hrn hs hsn hv⟩
  obtain ⟨hdigest, pair, hsigns, hid, rfl⟩ := exists_of_signDigest hsig
  have hhalf : (halfN : Int) = n / 2 := by decide
  have hv : (pair.id : Int) = 0 ∨ (pair.id : Int) = 1 := by omega
  exact ⟨Int.natCast_pos.mpr hsigns.r_pos, Int.ofNat_lt.mpr hsigns.r_lt,
    Int.natCast_pos.mpr hsigns.s_pos, hhalf ▸ Int.ofNat_le.mpr hsigns.s_le, hv,
    recover_of_signs hdigest hsigns hid⟩

/-- The signature of the empty message by the least key, and the same with `s` in the upper half. -/
theorem signatures_recover_empty :
    Signer.emptySignature.recover Signer.emptyDigest = .ok Signer.leastKey.toPublic ∧
      ∃ sig, Signature.ofNative Signer.emptySignature.r (n - Signer.emptySignature.s) 1 = .ok sig ∧
        sig.recover Signer.emptyDigest =
          (Signature.mk Signer.emptySignature.r (n - Signer.emptySignature.s) 1).recover
            Signer.emptyDigest := by
  obtain ⟨hsigned, hmoved⟩ := signatures_recover
  obtain ⟨-, -, -, -, -, hrecover⟩ := hsigned _ _ _ Signer.signDigest_leastKey
  obtain ⟨sig, hsig, hsame⟩ := hmoved Signer.emptySignature.r (n - Signer.emptySignature.s) 1
    (by decide) (by decide) (by decide) (by decide) (.inr rfl)
  exact ⟨hrecover, sig, hsig, hsame Signer.emptyDigest⟩

end PrivateKey

/-! ## Verification -/

namespace PublicKey

variable {digest : Bytes} {sig : Signature} {key : PublicKey}

/-- A point of the group other than zero is that of its key. -/
theorem toPoint_ofGroup {Q : Group} (hQ : Q ≠ 0) :
    (ofPoint (.ofGroup Q)).toPoint = .ok (.ofGroup Q) := by
  match Q with
  | .zero => exact absurd rfl hQ
  | .some x y hP => exact toPoint_eq (isOnCurve_of_ofGroup (P := .some x y hP) rfl)

theorem exists_toPoint (h : isOnCurve key.x key.y = true) :
    ∃ Q : Group, Q ≠ 0 ∧ key = ofPoint (.ofGroup Q) ∧ key.toPoint = .ok (.ofGroup Q) := by
  obtain ⟨Q, hQ⟩ := exists_of_isOnCurve h
  refine ⟨Q, ?_, ?_, ?_⟩
  · rintro rfl
    cases hQ
  · rw [hQ]
    rfl
  · rw [hQ, toPoint_eq h]

/-- Of scalars of the curve, verification is that of the point of the key. -/
theorem verify_eq {r s : Int} {q : Point} (hnative : Signature.isNative r s 0 = true)
    (hpoint : key.toPoint = .ok q) (hdigest : digest.length = Error.digestWidth) (v : Int) :
    key.verify digest ⟨r, s, v⟩ = .ok (Ecdsa.verify q r.toNat s.toNat digest) := by
  have hwidth : ¬digest.length ≠ Error.digestWidth := not_not_intro hdigest
  simp only [verify, hnative, hpoint, Except.ok_bind, if_neg hwidth, Bool.not_true]
  rfl

theorem verify_of_not_isNative (h : ¬Signature.isNative sig.r sig.s 0 = true) :
    key.verify digest sig = .ok false := by
  simp only [verify, Bool.not_eq_true .. ▸ h, Bool.not_false]
  rfl

/-- A key that is recovered verifies the scalars and their mirror, whatever `v` is. -/
theorem verify_of_recover (h : sig.recover digest = .ok key) (v : Int) :
    key.verify digest ⟨sig.r, sig.s, v⟩ = .ok true ∧
      key.verify digest ⟨sig.r, n - sig.s, v⟩ = .ok true := by
  obtain ⟨hnative, hdigest, point, hpoint, rfl⟩ := Signature.exists_of_recover h
  obtain ⟨hr, hrn, hs, hsn, -⟩ := Signature.isNative_iff.mp hnative
  obtain ⟨hspos, Q, hQ, rfl, hverify⟩ := Ecdsa.verify_of_recover? (by omega) (by omega) hpoint
  have hsub : ((n : Int) - sig.s).toNat = n - sig.s.toNat := by omega
  constructor
  · rw [verify_eq (Signature.isNative_iff.mpr ⟨hr, hrn, hs, hsn, .inl rfl⟩) (toPoint_ofGroup hQ)
      hdigest, hverify]
  · rw [verify_eq (Signature.isNative_iff.mpr ⟨hr, hrn, by omega, by omega, .inl rfl⟩)
      (toPoint_ofGroup hQ) hdigest, hsub, Ecdsa.verify_neg (by omega) (by omega), hverify]

/-- A key that verifies is recovered with one of the parities, if no abscissa is beyond the order. -/
theorem exists_recover_of_verify (hcurve : isOnCurve key.x key.y = true)
    (hdigest : digest.length = Error.digestWidth) (hwrap : (p : Int) ≤ sig.r + n)
    (h : key.verify digest sig ≠ .ok false) :
    ∃ id : Int, (id = 0 ∨ id = 1) ∧ (Signature.mk sig.r sig.s id).recover digest = .ok key := by
  by_cases hnative : Signature.isNative sig.r sig.s 0 = true
  · obtain ⟨hr, hrn, hs, hsn, -⟩ := Signature.isNative_iff.mp hnative
    obtain ⟨Q, hQ, hkey, hpoint⟩ := exists_toPoint hcurve
    have heq := verify_eq hnative hpoint hdigest sig.v
    rw [heq, ne_eq, Except.ok.injEq, Bool.not_eq_false] at h
    obtain ⟨odd, hodd⟩ :=
      Ecdsa.exists_recover?_of_verify (by omega) (by omega) (by omega) hQ h
    have hid : (if odd then 1 else 0 : Int) = 0 ∨ (if odd then 1 else 0 : Int) = 1 := by
      cases odd
      · exact .inl rfl
      · exact .inr rfl
    have hparity : ((if odd then 1 else 0 : Int) == 1) = odd := by cases odd <;> rfl
    rw [← hparity] at hodd
    rw [hkey]
    exact ⟨if odd then 1 else 0, hid, Signature.recover_raw
      (Signature.isNative_iff.mpr ⟨hr, hrn, hs, hsn, hid⟩) hdigest hodd⟩
  · exact absurd (verify_of_not_isNative hnative) h

/-- **Recovery and verification agree.** A key that a signature over a digest recovers to verifies
its scalars and their mirror, whatever `v` is. A key on the curve that is not recovered from the
scalars with either parity does not verify them, if `r` is too large for a second abscissa. -/
theorem recover_agrees_verify :
    (∀ (key : PublicKey) (digest : Bytes) (sig : Signature), sig.recover digest = .ok key →
      ∀ v, key.verify digest ⟨sig.r, sig.s, v⟩ = .ok true ∧
        key.verify digest ⟨sig.r, n - sig.s, v⟩ = .ok true) ∧
    ∀ (key : PublicKey) (digest : Bytes) (sig : Signature), digest.length = 32 →
      isOnCurve key.x key.y = true → (p : Int) ≤ sig.r + n →
      (∀ id : Int, id = 0 ∨ id = 1 →
        (Signature.mk sig.r sig.s id).recover digest ≠ .ok key) →
      key.verify digest sig = .ok false := by
  refine ⟨fun key digest sig h => verify_of_recover h, ?_⟩
  intro key digest sig hdigest hcurve hwrap hother
  by_contra h
  obtain ⟨id, hid, hrecover⟩ := exists_recover_of_verify hcurve hdigest hwrap h
  exact hother id hid hrecover

/-- The scalars one and one verify under the key that they recover to. Those of the least key are not
verified by another one. -/
theorem recover_agrees_verify_samples :
    Signer.sampleKey.verify Signer.sampleDigest ⟨1, n - 1, 27⟩ = .ok true ∧
      (p : Int) ≤ Signer.emptySignature.r + n ∧
      Signer.sampleKey.verify Signer.emptyDigest Signer.emptySignature = .ok false := by
  obtain ⟨hagrees, hdiffers⟩ := recover_agrees_verify
  have hwrap : (p : Int) ≤ Signer.emptySignature.r + n := by decide
  have hown : Signer.leastKey.toPublic ≠ Signer.sampleKey := by decide +kernel
  have hmirror : ((Signature.mk Signer.emptySignature.r Signer.emptySignature.s 1).recover
      Signer.emptyDigest).toOption ≠ some Signer.sampleKey := by
    decide +kernel
  refine ⟨(hagrees _ _ _ Signer.recover_sample 27).2, hwrap,
    hdiffers Signer.sampleKey _ _ rfl (by decide) hwrap ?_⟩
  rintro id (rfl | rfl) h
  · have hleast := Signer.isRecovered_leastKey.1 _ Signer.signDigest_leastKey
    exact hown (Except.ok.inj (hleast.symm.trans h))
  · exact hmirror (congrArg Except.toOption h)

end PublicKey

end MetaTx
