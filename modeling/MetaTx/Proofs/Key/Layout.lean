import Mathlib.Algebra.Group.Int.Defs
import MetaTx.Proofs.Error
import MetaTx.Proofs.Key.Signature

/-!
# The layout of a signature, both ways

Reading the layout and writing it are inverse to each other: what is read from 65 bytes is written
as these, and what is written is read as the signature. No other number of bytes is read, and no
signature is written that has a component of the wrong size. Among the reasons for that, the one of
a number `v` that is too large comes first, unless it has too many digits to be told.
-/

namespace MetaTx.Signature

variable {sig : Signature} {raw : Bytes}

/-! ## Reading -/

/-- The three parts of 65 bytes. -/
theorem exists_parts (h : raw.length = width) : ∃ (r s : Bytes) (v : UInt8),
    r.length = 32 ∧ s.length = 32 ∧ raw = r ++ s ++ [v] := by
  have hlen : raw.length = 65 := h
  have hback : (raw.drop 64).length = 1 := by rw [List.length_drop, hlen]
  obtain ⟨v, hv⟩ := List.length_eq_one_iff.mp hback
  refine ⟨raw.take 32, (raw.drop 32).take 32, v, ?_, ?_, ?_⟩
  · rw [List.length_take]
    omega
  · rw [List.length_take, List.length_drop]
    omega
  · have hdrop : (raw.drop 32).drop 32 = raw.drop 64 := List.drop_drop
    have hmiddle : (raw.drop 32).take 32 ++ raw.drop 64 = raw.drop 32 := by
      rw [← hdrop, List.take_append_drop]
    rw [← hv, List.append_assoc, hmiddle, List.take_append_drop]

theorem ofBytes_eq_error (h : raw.length ≠ width) :
    ofBytes raw = .error (.length .signature raw.length) :=
  if_neg h

/-- Every string of 65 bytes is the layout of a signature. -/
theorem exists_isSized_layout (h : raw.length = width) :
    ∃ sig : Signature, sig.IsSized ∧ raw = sig.layout := by
  obtain ⟨r, s, v, hr, hs, rfl⟩ := exists_parts h
  have hrlt : Bytes.toNat r < Bytes.limit 32 := hr ▸ Bytes.toNat_lt r
  have hslt : Bytes.toNat s < Bytes.limit 32 := hs ▸ Bytes.toNat_lt s
  have hvlt : v.toNat < 256 := v.toNat_lt
  have hrwrite : Bytes.ofNat 32 (Bytes.toNat r) = r := hr ▸ Bytes.ofNat_toNat r
  have hswrite : Bytes.ofNat 32 (Bytes.toNat s) = s := hs ▸ Bytes.ofNat_toNat s
  refine ⟨⟨Bytes.toNat r, Bytes.toNat s, v.toNat⟩, ⟨?_, ?_, ?_, ?_, ?_, ?_⟩, ?_⟩
  · exact Int.natCast_nonneg _
  · exact Int.ofNat_lt.mpr hrlt
  · exact Int.natCast_nonneg _
  · exact Int.ofNat_lt.mpr hslt
  · exact Int.natCast_nonneg _
  · show (v.toNat : Int) ≤ 255
    omega
  · simp only [layout, Int.toNat_natCast, hrwrite, hswrite, Nat.toUInt8_eq, UInt8.ofNat_toNat]

theorem ofBytes_eq_ok_iff : ofBytes raw = .ok sig ↔ sig.IsSized ∧ raw = sig.layout := by
  constructor
  · intro hread
    by_cases hlen : raw.length = width
    · obtain ⟨sig', hsized, rfl⟩ := exists_isSized_layout hlen
      rw [ofBytes_layout hsized] at hread
      obtain rfl := Except.ok.inj hread
      exact ⟨hsized, rfl⟩
    · rw [ofBytes_eq_error hlen] at hread
      cases hread
  · intro ⟨hsized, hraw⟩
    rw [hraw, ofBytes_layout hsized]

/-! ## Writing -/

theorem isSized_iff : sig.IsSized ↔ (0 ≤ sig.r ∧ sig.r < Bytes.limit 32) ∧
    (0 ≤ sig.s ∧ sig.s < Bytes.limit 32) ∧ 0 ≤ sig.v ∧ sig.v ≤ 255 := by
  constructor
  · intro h
    exact ⟨⟨h.r_nonneg, h.r_lt⟩, ⟨h.s_nonneg, h.s_lt⟩, h.v_nonneg, h.v_le⟩
  · intro ⟨⟨hr0, hr⟩, ⟨hs0, hs⟩, hv0, hv⟩
    exact ⟨hr0, hr, hs0, hs, hv0, hv⟩

/-- A `v` beyond one byte is refused by name, as long as it can be written. -/
theorem toBytes_of_wide (h : 255 < sig.v) :
    sig.toBytes = .error ((Error.signing (.wideV sig.v)).telling (.int sig.v)) := by
  simp only [toBytes, h, ↓reduceIte]
  rfl

theorem toBytes_of_wide_of_lt (h : 255 < sig.v) (hlt : sig.v < Text.writeLimit) :
    sig.toBytes = .error (.signing (.wideV sig.v)) := by
  rw [toBytes_of_wide h, Error.telling_of_writable (by omega)]

theorem toBytes_of_long (h : Text.writeLimit ≤ sig.v) :
    sig.toBytes = .error (.fault .longInteger) := by
  have hbyte : 255 < Text.writeLimit := Text.lt_writeLimit (by decide)
  rw [toBytes_of_wide (by omega), Error.telling_of_long (by omega)]

/-- A negative `v` is told last. -/
theorem toBytes_of_negative (hv : sig.v < 0) (hr : 0 ≤ sig.r ∧ sig.r < Bytes.limit 32)
    (hs : 0 ≤ sig.s ∧ sig.s < Bytes.limit 32) : sig.toBytes = .error (.fault .negativeV) := by
  have hnarrow : ¬255 < sig.v := by omega
  simp only [toBytes, scalarBytes_eq hr.1 hr.2, scalarBytes_eq hs.1 hs.2, hnarrow, hv, ↓reduceIte]
  rfl

theorem toBytes_of_not_isSized (hv : sig.v ≤ 255) (h : ¬sig.IsSized) :
    ∃ fault, fault ≠ .longInteger ∧ sig.toBytes = .error (.fault fault) := by
  by_cases hscalars : (0 ≤ sig.r ∧ sig.r < Bytes.limit 32) ∧ 0 ≤ sig.s ∧ sig.s < Bytes.limit 32
  · have hneg : sig.v < 0 := by
      by_contra hv0
      exact h (isSized_iff.mpr ⟨hscalars.1, hscalars.2, Int.not_lt.mp hv0, hv⟩)
    exact ⟨.negativeV, by simp, toBytes_of_negative hneg hscalars.1 hscalars.2⟩
  · exact ⟨.wideScalar, by simp, toBytes_eq_error hv hscalars⟩

/-- What writing comes to, whatever the integers. -/
inductive Written (sig : Signature) : Except Error Bytes → Prop
  | layout (h : sig.IsSized) : Written sig (.ok sig.layout)
  | wide (h : 255 < sig.v) (hlt : sig.v < Text.writeLimit) :
      Written sig (.error (.signing (.wideV sig.v)))
  | long (h : Text.writeLimit ≤ sig.v) : Written sig (.error (.fault .longInteger))
  | misfit {fault : Fault} (hv : sig.v ≤ 255) (h : ¬sig.IsSized) (hfault : fault ≠ .longInteger) :
      Written sig (.error (.fault fault))

theorem written_toBytes (sig : Signature) : sig.Written sig.toBytes := by
  by_cases hsized : sig.IsSized
  · rw [toBytes_eq hsized]
    exact .layout hsized
  by_cases hlong : Text.writeLimit ≤ sig.v
  · rw [toBytes_of_long hlong]
    exact .long hlong
  by_cases hwide : 255 < sig.v
  · rw [toBytes_of_wide_of_lt hwide (by omega)]
    exact .wide hwide (by omega)
  · have hv := Int.not_lt.mp hwide
    obtain ⟨fault, hfault, h⟩ := toBytes_of_not_isSized hv hsized
    rw [h]
    exact .misfit hv hsized hfault

theorem toBytes_eq_ok_iff : sig.toBytes = .ok raw ↔ sig.IsSized ∧ raw = sig.layout := by
  refine ⟨fun h => ?_, fun ⟨hsized, hraw⟩ => hraw ▸ toBytes_eq hsized⟩
  have hwritten := sig.written_toBytes
  rw [h] at hwritten
  cases hwritten with
  | layout hsized => exact ⟨hsized, rfl⟩

theorem toBytes_eq_wide_iff : sig.toBytes = .error (.signing (.wideV sig.v)) ↔
    255 < sig.v ∧ sig.v < Text.writeLimit := by
  refine ⟨fun h => ?_, fun ⟨hwide, hlt⟩ => toBytes_of_wide_of_lt hwide hlt⟩
  have hwritten := sig.written_toBytes
  rw [h] at hwritten
  cases hwritten with
  | wide hwide hlt => exact ⟨hwide, hlt⟩

theorem toBytes_eq_long_iff :
    sig.toBytes = .error (.fault .longInteger) ↔ Text.writeLimit ≤ sig.v := by
  refine ⟨fun h => ?_, toBytes_of_long⟩
  have hwritten := sig.written_toBytes
  rw [h] at hwritten
  cases hwritten with
  | long hlong => exact hlong
  | misfit _ _ hfault => exact absurd rfl hfault

theorem exists_toBytes_eq_fault_iff :
    (∃ fault, fault ≠ .longInteger ∧ sig.toBytes = .error (.fault fault)) ↔
      sig.v ≤ 255 ∧ ¬sig.IsSized := by
  refine ⟨fun ⟨fault, hfault, h⟩ => ?_, fun h => toBytes_of_not_isSized h.1 h.2⟩
  have hwritten := sig.written_toBytes
  rw [h] at hwritten
  cases hwritten with
  | long => exact absurd rfl hfault
  | misfit hv hsized => exact ⟨hv, hsized⟩

/-! ## The result -/

/-- **Signatures and their bytes.** Bytes are read as a signature exactly if it is written as these
bytes. All strings of 65 bytes are read and no others, and exactly the signatures are written whose
scalars have 256 bits and whose `v` has 8. Of the others, those with a larger `v` are refused for
it, whatever their scalars are. But a `v` that has too many digits to be written in the refusal ends
in a fault instead. -/
theorem layout_bijective (raw : Bytes) (sig : Signature) :
    (ofBytes raw = .ok sig ↔ sig.toBytes = .ok raw) ∧
    (raw.length = 65 ↔ ∃ sig, ofBytes raw = .ok sig) ∧
    (raw.length ≠ 65 ↔ ofBytes raw = .error (.length .signature raw.length)) ∧
    ((0 ≤ sig.r ∧ sig.r < 2 ^ 256) ∧ (0 ≤ sig.s ∧ sig.s < 2 ^ 256) ∧ 0 ≤ sig.v ∧ sig.v ≤ 255 ↔
      ∃ raw, sig.toBytes = .ok raw ∧ raw.length = 65) ∧
    (255 < sig.v ∧ sig.v < Text.writeLimit ↔
      sig.toBytes = .error (.signing (.wideV sig.v))) ∧
    (Text.writeLimit ≤ sig.v ↔ sig.toBytes = .error (.fault .longInteger)) ∧
    (sig.v ≤ 255 ∧ ¬((0 ≤ sig.r ∧ sig.r < 2 ^ 256) ∧ (0 ≤ sig.s ∧ sig.s < 2 ^ 256) ∧ 0 ≤ sig.v ∧
      sig.v ≤ 255) ↔ ∃ fault, fault ≠ .longInteger ∧ sig.toBytes = .error (.fault fault)) := by
  have hlimit : ((2 : Int) ^ 256) = (Bytes.limit 32 : Nat) := by decide
  have hwidth : (65 : Nat) = width := rfl
  rw [hlimit, hwidth, ← isSized_iff]
  refine ⟨?_, ⟨?_, ?_⟩, ⟨ofBytes_eq_error, ?_⟩, ⟨?_, ?_⟩, toBytes_eq_wide_iff.symm,
    toBytes_eq_long_iff.symm, exists_toBytes_eq_fault_iff.symm⟩
  · rw [ofBytes_eq_ok_iff, toBytes_eq_ok_iff]
  · intro hlen
    obtain ⟨sig, hsized, hraw⟩ := exists_isSized_layout hlen
    exact ⟨sig, ofBytes_eq_ok_iff.mpr ⟨hsized, hraw⟩⟩
  · rintro ⟨sig, hread⟩
    rw [(ofBytes_eq_ok_iff.mp hread).2, length_layout]
  · intro hrefused hlen
    rw [ofBytes, if_pos hlen] at hrefused
    cases hrefused
  · intro hsized
    exact ⟨sig.layout, toBytes_eq hsized, length_layout sig⟩
  · rintro ⟨raw, hwritten, -⟩
    exact (toBytes_eq_ok_iff.mp hwritten).1

/-- A `v` with too many digits is beyond one byte, and still it is refused with no signing error. -/
theorem toBytes_longV : (255 : Int) < Text.writeLimit ∧
    (Signature.mk 1 1 Text.writeLimit).toBytes = .error (.fault .longInteger) ∧
    (Error.fault .longInteger).isA .signing = false := by
  have hbyte : 255 < Text.writeLimit := Text.lt_writeLimit (by decide)
  exact ⟨by omega, toBytes_of_long (Int.le_refl _), rfl⟩

end MetaTx.Signature
