import MetaTx.Proofs.Key.Private

/-!
# Each checked text is of one payload

The checked form is exact in both directions. What is written is read back, and a text that is read
is what would be written, but for blanks at its end. So a payload has no second spelling, not even
with other zero bytes in front. Of a private key this holds up to the mark, which may be left out.
-/

namespace MetaTx

/-! ## Blanks at the end -/

namespace Text

/-- A text without blanks at its end. -/
def stripEnd (s : String) : String := String.ofList (dropTrailing isBlank s.toList)

theorem toList_stripEnd (s : String) : (stripEnd s).toList = dropTrailing isBlank s.toList :=
  String.toList_ofList

end Text

namespace Base58

theorem stripEnd_encodeChecked (payload : Bytes) :
    Text.stripEnd (encodeChecked payload) = encodeChecked payload := by
  apply String.toList_inj.mp
  rw [Text.toList_stripEnd]
  exact Text.dropTrailing_of_forall fun c hc =>
    not_isBlank_of_mem_alphabet c (mem_alphabet_of_mem_encodeChecked c hc)

theorem decode?_congr {cs cs' : List Char}
    (h : Text.dropTrailing Text.isBlank cs = Text.dropTrailing Text.isBlank cs') :
    decode? cs = decode? cs' := by
  rw [decode?, decode?, h]

theorem decodeChecked_congr {s t : String} (h : Text.stripEnd s = Text.stripEnd t) :
    decodeChecked s = decodeChecked t := by
  have hchars := congrArg String.toList h
  rw [Text.toList_stripEnd, Text.toList_stripEnd] at hchars
  rw [decodeChecked, decodeChecked, decode?_congr hchars]

/-! ## Payloads -/

/-- What is read is a payload with its check behind it. -/
theorem decode?_of_decodeChecked {s : String} {payload : Bytes}
    (h : decodeChecked s = .ok payload) : decode? s.toList = some (payload ++ check payload) := by
  unfold decodeChecked at h
  cases hraw : decode? s.toList with
  | none =>
    rw [hraw] at h
    cases h
  | some raw =>
    simp only [hraw] at h
    split at h
    · cases h
    · split at h
      · next hcheck =>
        obtain rfl := Except.ok.inj h
        rw [hcheck, List.take_append_drop]
      · cases h

theorem decodeChecked_eq_ok_iff {s : String} {payload : Bytes} :
    decodeChecked s = .ok payload ↔ Text.stripEnd s = encodeChecked payload := by
  constructor
  · intro h
    rw [Text.stripEnd, ← encode_of_decode? (decode?_of_decodeChecked h), encodeChecked]
  · intro h
    have hsame : Text.stripEnd s = Text.stripEnd (encodeChecked payload) := by
      rw [h, stripEnd_encodeChecked]
    rw [decodeChecked_congr hsame, decodeChecked_encodeChecked]

end Base58

/-! ## Private keys -/

namespace PrivateKey

theorem ofChecked_eq_ok_iff {s : String} {key : PrivateKey} :
    ofChecked s = .ok key ↔ Text.stripEnd (dropCheckedMark s) = key.unmarked := by
  constructor
  · intro h
    obtain ⟨raw, hraw, h⟩ := Except.bind_eq_ok_iff.mp h
    obtain rfl := ofBytes_eq_ok_iff.mp h
    exact Base58.decodeChecked_eq_ok_iff.mp (Except.mapError_eq_ok_iff.mp hraw)
  · intro h
    have hraw := Base58.decodeChecked_eq_ok_iff.mpr h
    exact Except.bind_eq_ok_iff.mpr
      ⟨key.toBytes, Except.mapError_eq_ok_iff.mpr hraw, ofBytes_toBytes key⟩

/-- **A payload and its checked text determine each other.** Any payload is read back from its
checked text, and the texts that give a payload are that one, with or without blanks behind it.
Hence a private key is read back from its checked text, and two texts of one key are the same once
the mark in front and the blanks behind are dropped. -/
theorem checkedText_exact :
    (∀ payload : Bytes, Base58.decodeChecked (Base58.encodeChecked payload) = .ok payload) ∧
      (∀ (s : String) (payload : Bytes), Base58.decodeChecked s = .ok payload ↔
        Text.stripEnd s = Base58.encodeChecked payload) ∧
      (∀ key : PrivateKey, ofChecked key.toChecked = .ok key) ∧
      ∀ (key : PrivateKey) (s t : String), ofChecked s = .ok key → ofChecked t = .ok key →
        Text.stripEnd (dropCheckedMark s) = Text.stripEnd (dropCheckedMark t) := by
  refine ⟨Base58.decodeChecked_encodeChecked, fun s payload => Base58.decodeChecked_eq_ok_iff,
    ofChecked_toChecked, ?_⟩
  intro key s t hs ht
  rw [ofChecked_eq_ok_iff.mp hs, ofChecked_eq_ok_iff.mp ht]

theorem checkedText_exact_one :
    ofChecked one.toChecked = .ok one ∧ ofChecked one.unmarked = .ok one ∧
      Text.stripEnd (dropCheckedMark one.toChecked) =
        Text.stripEnd (dropCheckedMark one.unmarked) := by
  have hmarked := one.ofChecked_toChecked
  have hunmarked := one.ofChecked_unmarked
  exact ⟨hmarked, hunmarked, checkedText_exact.2.2.2 one _ _ hmarked hunmarked⟩

end PrivateKey

end MetaTx
