import MetaTx.Key.ChainText
import MetaTx.Proofs.Bytes.Bech32.Typo
import MetaTx.Proofs.Error

/-!
# Which texts of chain addresses are refused how

A text that stands for no bytes is refused as no text of a key, unless it is spelled as an address with
a wrong checksum. That one is a fault of no kind.
-/

namespace MetaTx.Bech32

theorem read_eq_fault_iff (hrp : String) {address : String} :
    read hrp address = .error (.fault .bech32Checksum) ↔ HasWrongChecksum address := by
  rw [← decode_eq_checksum_iff hrp, read]
  cases decode hrp address with
  | ok bs => exact iff_of_false nofun nofun
  | error refusal =>
    cases refusal with
    | malformed => exact iff_of_false nofun nofun
    | checksum => exact iff_of_true rfl rfl

/-- **How the text of an address is read.** It is read to the bytes that it is written from. If it
stands for no bytes under the human-readable part, it is refused as no text of a key, except for a text
that is spelled as an address with a wrong checksum: that one is a fault, which those who wait for
errors of key texts do not catch. One wrong symbol in a text that is written under any human-readable
part leads to it. -/
theorem read_outcome (hrp address : String) :
    (∀ bs, read hrp address = .ok bs ↔
      (hrp.toList ≠ [] ∧ (∀ c ∈ hrp.toList, isHrpChar c = true) ∧ bs ≠ []) ∧
      ¬(address.toList.any Char.isLower && address.toList.any Text.isUpper) = true ∧
      Text.lower address.toList = (encode hrp bs).toList) ∧
    (∀ e, read hrp address = .error e →
      e = .keyText .bech32 ∧ e.isA .keyText = true ∧ ¬HasWrongChecksum address ∨
        e = .fault .bech32Checksum ∧ e.isA .keyText = false ∧ HasWrongChecksum address) ∧
    (HasWrongChecksum address → read hrp address = .error (.fault .bech32Checksum)) ∧
    (∀ other bs, other ≠ "" →
      (∀ c ∈ other.toList, isHrpChar c = true ∧ Text.isUpper c = false) → bs ≠ [] →
        IsTypoOf address other bs → read hrp address = .error (.fault .bech32Checksum)) := by
  have hfault : _ ↔ HasWrongChecksum address := read_eq_fault_iff hrp
  refine ⟨fun bs => ?_, fun e h => ?_, hfault.mpr, ?_⟩
  · rw [read, Except.mapError_eq_ok_iff, decode_eq_ok_iff_encode]
  · rw [h] at hfault
    obtain ⟨refusal, -, rfl⟩ := Except.mapError_eq_error_iff.mp h
    cases refusal with
    | malformed => exact .inl ⟨rfl, Error.isA_of_kind? rfl, fun hwrong => nomatch hfault.mpr hwrong⟩
    | checksum => exact .inr ⟨rfl, rfl, hfault.mp rfl⟩
  · intro other bs hne hplain hbytes htypo
    exact hfault.mpr (hasWrongChecksum_of_isTypoOf hne hplain hbytes htypo)

theorem read_outcome_samples :
    read "a" "A1QQQD87CQ" = .ok [0] ∧
    read "b" "a1qqqd87cq" = .error (.keyText .bech32) ∧
    read "b" "a1qqqd87cp" = .error (.fault .bech32Checksum) := by
  have hplain : ∀ c ∈ "a".toList, isHrpChar c = true ∧ Text.isUpper c = false := by
    intro c hc
    obtain rfl := List.mem_singleton.mp hc
    decide
  have htypo : IsTypoOf "a1qqqd87cp" "a" [0] :=
    ⟨"qqqd87c".toList, [], 'q', 'p', by decide, by decide, by decide, by decide⟩
  obtain ⟨hok, -, -, -⟩ := read_outcome "a" "A1QQQD87CQ"
  obtain ⟨-, -, -, hfault⟩ := read_outcome "b" "a1qqqd87cp"
  exact ⟨(hok [0]).mpr ⟨⟨by decide, fun c hc => (hplain c hc).1, by decide⟩, by decide, by decide⟩,
    rfl, hfault "a" [0] (by decide) hplain (by decide) htypo⟩

/-- The last symbol of a written text is another one. -/
theorem read_typo :
    encode "a" [0] = "a1qqqd87cq" ∧ read "a" "a1qqqd87cp" = .error (.fault .bech32Checksum) ∧
      (Error.fault .bech32Checksum).isA .keyText = false :=
  ⟨by decide, rfl, rfl⟩

end MetaTx.Bech32
