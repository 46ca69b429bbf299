import MetaTx.Proofs.Abi.Part
import MetaTx.TypedData

/-!
# Values that do not fit their types

A value of a basic type is refused if it stands for nothing of the kind. What it stands for can still be
no integer or address, out of range or too long. That is told by the layout, once the value is turned
into what is laid out, and these are the only values at which a layout faults.
-/

namespace MetaTx.TypedData

variable {type : String} {v : Value} {turned : Field} {f : Fault} {e : Error}

/-! ## Values of basic types -/

/-- A value that stands for something that is not of its basic type, and the fault that this is. -/
inductive Misfit (type : String) (v : Value) : Fault → Prop
  | kind {abi : AbiType} {low high : Int} (hbasic : basic? type = some abi)
      (hrange : Abi.range? abi = some (low, high)) (hint : ∀ n, v ≠ .int n)
      (htext : ∀ s, v ≠ .text s) : Misfit type v .abiType
  | range {abi : AbiType} {low high n : Int} (hbasic : basic? type = some abi)
      (hrange : Abi.range? abi = some (low, high)) (hn : integer v = .ok (.int n))
      (hout : ¬(low ≤ n ∧ n < high)) : Misfit type v .abiRange
  | account (hbasic : basic? type = some .address) (hno : ¬Abi.IsAccount v) : Misfit type v .abiType
  | tooLong {n : Nat} {bs : Bytes} (hbasic : basic? type = some (.word n))
      (hbs : byteString v = .ok bs) (hlong : n < bs.length) : Misfit type v .abiRange

/-- What a value of a basic type is turned into. -/
inductive Turned (type : String) (v : Value) : Field → Prop
  | hash {hash : Bytes} (hbasic : basic? type = some .bytes) (hwidth : hash.length = 32) :
      Turned type v (hashField hash)
  | word {n : Nat} {bs : Bytes} (hbasic : basic? type = some (.word n))
      (hbs : byteString v = .ok bs) : Turned type v (.word n, .bytes bs)
  | bool {b : Bool} (hbasic : basic? type = some .bool) : Turned type v (.bool, .bool b)
  | number {abi : AbiType} {low high : Int} {w : Value} (hbasic : basic? type = some abi)
      (hrange : Abi.range? abi = some (low, high)) (hw : integer v = .ok w) :
      Turned type v (abi, w)
  | address (hbasic : basic? type = some .address) : Turned type v (.address, v)

theorem basic?_ne_tuple (types : List AbiType) : basic? type ≠ some (.tuple types) := by
  intro h
  unfold basic? at h
  split at h
  case h_5 =>
    split at h
    · split at h <;> cases h
    · cases h
  case h_6 digits _ => cases hbits : bits? digits <;> rw [hbits] at h <;> cases h
  case h_7 digits _ => cases hbits : bits? digits <;> rw [hbits] at h <;> cases h
  all_goals cases h

theorem turned_of_basicField (h : basicField type v = .ok turned) : Turned type v turned := by
  unfold basicField at h
  split at h
  · next hstring =>
    obtain ⟨bs, -, h⟩ := Except.bind_eq_ok_iff.mp h
    cases h
    have htype : type = "string" := eq_of_beq hstring
    exact .hash (by rw [htype]; rfl) (length_keccak bs)
  · split at h
    · next hbasic =>
      obtain ⟨bs, -, h⟩ := Except.bind_eq_ok_iff.mp h
      cases h
      exact .hash hbasic (length_keccak bs)
    · next n hbasic =>
      obtain ⟨bs, hbs, h⟩ := Except.bind_eq_ok_iff.mp h
      cases h
      exact .word hbasic hbs
    · next hbasic =>
      obtain ⟨b, -, h⟩ := Except.bind_eq_ok_iff.mp h
      cases h
      exact .bool hbasic
    · next bits hbasic =>
      obtain ⟨w, hw, h⟩ := Except.bind_eq_ok_iff.mp h
      cases h
      exact .number hbasic rfl hw
    · next bits hbasic =>
      obtain ⟨w, hw, h⟩ := Except.bind_eq_ok_iff.mp h
      cases h
      exact .number hbasic rfl hw
    · next abi hbytes hword hbool huint hint hbasic =>
      cases h
      cases abi with
      | address => exact .address hbasic
      | tuple types => exact absurd hbasic (basic?_ne_tuple types)
      | bytes => exact (hbytes rfl).elim
      | word n => exact (hword n rfl).elim
      | bool => exact (hbool rfl).elim
      | uint bits => exact (huint bits rfl).elim
      | int bits => exact (hint bits rfl).elim
    · cases h

theorem byteString_eq_error (h : byteString v = .error e) : e = refused := by
  cases v with
  | text s =>
    simp only [byteString] at h
    split at h <;> cases h
  | bytes _ | int _ | bool _ => cases h
  | null | float _ | list _ | map _ => exact (Except.error.inj h).symm

theorem textBytes_eq_error (h : textBytes v = .error e) : e = refused := by
  cases v with
  | int n =>
    simp only [textBytes] at h
    split at h
    · exact (Except.error.inj h).symm
    · cases h
  | text _ | bool _ => cases h
  | null | float _ | bytes _ | list _ | map _ => exact (Except.error.inj h).symm

theorem truth_eq_error (h : truth v = .error e) : e = refused := by
  cases v with
  | list items =>
    simp only [truth] at h
    split at h
    · cases h
    · exact (Except.error.inj h).symm
  | map entries =>
    simp only [truth] at h
    split at h
    · cases h
    · exact (Except.error.inj h).symm
  | null | bool _ | int _ | float _ | text _ | bytes _ => cases h

theorem integer_eq_error (h : integer v = .error e) : e = refused := by
  cases v with
  | text s =>
    simp only [integer] at h
    split at h
    · cases h
    · exact (Except.error.inj h).symm
  | null | bool _ | int _ | float _ | bytes _ | list _ | map _ => cases h

/-- What stands for nothing of its basic type is refused as such. -/
theorem basicField_eq_error (h : basicField type v = .error e) : e = refused := by
  unfold basicField at h
  split at h
  · exact textBytes_eq_error (Except.eq_error_of_bind_pure h)
  · split at h
    · exact byteString_eq_error (Except.eq_error_of_bind_pure h)
    · exact byteString_eq_error (Except.eq_error_of_bind_pure h)
    · exact truth_eq_error (Except.eq_error_of_bind_pure h)
    · exact integer_eq_error (Except.eq_error_of_bind_pure h)
    · exact integer_eq_error (Except.eq_error_of_bind_pure h)
    · cases h
    · exact (Except.error.inj h).symm

theorem integer_of_ne_text (h : ∀ s, v ≠ .text s) : integer v = .ok v := by
  cases v with
  | text s => exact absurd rfl (h s)
  | null | bool _ | int _ | float _ | bytes _ | list _ | map _ => rfl

theorem ne_int_of_integer {w : Value} (h : integer v = .ok w) (hw : ∀ n, w ≠ .int n) :
    (∀ n, v ≠ .int n) ∧ ∀ s, v ≠ .text s := by
  constructor
  · rintro n rfl
    exact hw n (Except.ok.inj h).symm
  · rintro s rfl
    simp only [integer] at h
    split at h
    · exact hw _ (Except.ok.inj h).symm
    · cases h

theorem part_hashField {hash : Bytes} (h : hash.length = 32) :
    ∃ p, Abi.part (hashField hash).1 (hashField hash).2 = .ok p :=
  ⟨_, Abi.part_word_of_length h⟩

namespace Turned

variable {abi : AbiType} {low high : Int}

theorem of_range? (h : Turned type v turned) (hbasic : basic? type = some abi)
    (hrange : Abi.range? abi = some (low, high)) : ∃ w, integer v = .ok w ∧ turned = (abi, w) := by
  cases h with
  | hash hother | word hother | bool hother | address hother =>
    cases hother.symm.trans hbasic
    cases hrange
  | number hother _ hw =>
    cases hother.symm.trans hbasic
    exact ⟨_, hw, rfl⟩

theorem of_address (h : Turned type v turned) (hbasic : basic? type = some .address) :
    turned = (.address, v) := by
  cases h with
  | hash hother | word hother | bool hother => cases hother.symm.trans hbasic
  | number hother hrange =>
    cases hother.symm.trans hbasic
    cases hrange
  | address => rfl

theorem of_word {n : Nat} (h : Turned type v turned) (hbasic : basic? type = some (.word n)) :
    ∃ bs, byteString v = .ok bs ∧ turned = (.word n, .bytes bs) := by
  cases h with
  | hash hother | bool hother | address hother => cases hother.symm.trans hbasic
  | number hother hrange =>
    cases hother.symm.trans hbasic
    cases hrange
  | word hother hbs =>
    cases hother.symm.trans hbasic
    exact ⟨_, hbs, rfl⟩

/-- Where the layout faults at what a value is turned into, the value is a misfit. -/
theorem misfit (h : Turned type v turned) (hpart : Abi.part turned.1 turned.2 = .error f) :
    Misfit type v f := by
  cases h with
  | hash _ hwidth =>
    obtain ⟨p, hp⟩ := part_hashField hwidth
    cases hp.symm.trans hpart
  | @word n bs hbasic hbs =>
    by_cases hfits : bs.length ≤ n
    · rw [Abi.part, if_pos hfits] at hpart
      cases hpart
    · rw [Abi.part, if_neg hfits] at hpart
      cases hpart
      exact .tooLong hbasic hbs (Nat.lt_of_not_le hfits)
  | bool => cases hpart
  | @number abi low high w hbasic hrange hw =>
    rw [Abi.part_of_range? hrange] at hpart
    by_cases hint : ∃ n, w = .int n
    · obtain ⟨n, rfl⟩ := hint
      by_cases hin : low ≤ n ∧ n < high
      · cases (if_pos hin).symm.trans hpart
      · cases (Abi.integer_of_not_range hin).symm.trans hpart
        exact .range hbasic hrange hw hin
    · have hno : ∀ n, w ≠ .int n := fun n hn => hint ⟨n, hn⟩
      cases (Abi.integer_of_ne_int hno).symm.trans hpart
      obtain ⟨hint, htext⟩ := ne_int_of_integer hw hno
      exact .kind hbasic hrange hint htext
  | address hbasic =>
    by_cases haccount : Abi.IsAccount v
    · obtain ⟨p, hp⟩ := Abi.exists_part_address haccount
      cases hp.symm.trans hpart
    · cases (Abi.part_address_of_not_isAccount haccount).symm.trans hpart
      exact .account hbasic haccount

/-- The layout faults at what a misfit is turned into. -/
theorem part_of_misfit (h : Turned type v turned) (hmisfit : Misfit type v f) :
    Abi.part turned.1 turned.2 = .error f := by
  cases hmisfit with
  | kind hbasic hrange hint htext =>
    obtain ⟨w, hw, rfl⟩ := h.of_range? hbasic hrange
    cases (integer_of_ne_text htext).symm.trans hw
    rw [Abi.part_of_range? hrange, Abi.integer_of_ne_int hint]
  | range hbasic hrange hn hout =>
    obtain ⟨w, hw, rfl⟩ := h.of_range? hbasic hrange
    cases hn.symm.trans hw
    rw [Abi.part_of_range? hrange, Abi.integer_of_not_range hout]
  | account hbasic hno =>
    obtain rfl := h.of_address hbasic
    exact Abi.part_address_of_not_isAccount hno
  | tooLong hbasic hbs hlong =>
    obtain ⟨bs, hbs', rfl⟩ := h.of_word hbasic
    cases hbs.symm.trans hbs'
    rw [Abi.part, if_neg (Nat.not_le_of_lt hlong)]

end Turned

/-! ## Misfits -/

theorem Misfit.basic?_ne_bytes (h : Misfit type v f) : basic? type ≠ some .bytes := by
  intro hbytes
  cases h with
  | kind hbasic hrange | range hbasic hrange =>
    cases hbytes.symm.trans hbasic
    cases hrange
  | account hbasic | tooLong hbasic => cases hbytes.symm.trans hbasic

theorem Misfit.fault_eq (h : Misfit type v f) : f = .abiType ∨ f = .abiRange := by
  cases h with
  | kind | account => exact .inl rfl
  | range | tooLong => exact .inr rfl

/-! ## Layouts -/

theorem exists_mem_of_layout_eq_error {fields : List Field} (h : layout fields = .error e) :
    ∃ turned ∈ fields, ∃ f, Abi.part turned.1 turned.2 = .error f ∧ e = .fault f := by
  obtain ⟨f, hf, rfl⟩ := Except.mapError_eq_error_iff.mp h
  obtain ⟨turned, hmem, hpart⟩ := Abi.exists_mem_of_encode_eq_error hf
  exact ⟨turned, hmem, f, hpart, rfl⟩

theorem exists_part_of_layout_eq_ok {fields : List Field} {bs : Bytes} (h : layout fields = .ok bs) :
    ∀ turned ∈ fields, ∃ p, Abi.part turned.1 turned.2 = .ok p :=
  Abi.exists_part_of_encode_eq_ok (Except.mapError_eq_ok_iff.mp h)

end MetaTx.TypedData
