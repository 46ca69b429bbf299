import MetaTx.Abi
import MetaTx.Proofs.Except

/-!
# Which values are laid out

An integer type has a range, and an address has a form. A tuple is laid out if each of its values is, so
what is refused is one of them.
-/

namespace MetaTx.Abi

variable {v : Value} {fault : Fault} {fields : List (AbiType × Value)}

/-- Whether a value is an address, as a text or as bytes. -/
def IsAccount (v : Value) : Prop :=
  (∃ s bs, v = .text s ∧ Address.ofText? s = some bs) ∨ ∃ bs, v = .bytes bs ∧ bs.length = Address.width

/-- The integers of an integer type, from the first up to below the second. -/
def range? : AbiType → Option (Int × Int)
  | .uint bits => some (0, Nat.pow 2 bits)
  | .int bits => some (-Nat.pow 2 (bits - 1), Nat.pow 2 (bits - 1))
  | _ => none

theorem padRight_of_length {n : Nat} {bs : Bytes} (h : bs.length = n) :
    Bytes.padRight n bs = bs := by
  rw [Bytes.padRight, h, Nat.sub_self, List.replicate_zero, List.append_nil]

theorem part_word_of_length {bs : Bytes} (h : bs.length = wordWidth) :
    part (.word wordWidth) (.bytes bs) = .ok ⟨false, bs⟩ := by
  rw [part, if_pos (Nat.le_of_eq h), padRight_of_length h]

theorem part_of_range? {type : AbiType} {low high : Int} (h : range? type = some (low, high)) :
    part type v = integer low high v := by
  cases type with
  | uint bits =>
    obtain ⟨rfl, rfl⟩ := Prod.mk.inj (Option.some.inj h)
    rw [part]
  | int bits =>
    obtain ⟨rfl, rfl⟩ := Prod.mk.inj (Option.some.inj h)
    rw [part]
  | bool | address | word _ | bytes | tuple _ => cases h

theorem integer_of_not_range {low high n : Int} (h : ¬(low ≤ n ∧ n < high)) :
    integer low high (.int n) = .error .abiRange :=
  if_neg h

theorem integer_of_ne_int {low high : Int} (h : ∀ n, v ≠ .int n) :
    integer low high v = .error .abiType := by
  cases v with
  | int n => exact absurd rfl (h n)
  | null | bool _ | text _ | float _ | bytes _ | list _ | map _ => rfl

theorem part_address_of_not_isAccount (h : ¬IsAccount v) : part .address v = .error .abiType := by
  cases v with
  | text s =>
    rw [part]
    split
    · next bs hbs => exact absurd (.inl ⟨s, bs, rfl, hbs⟩) h
    · rfl
  | bytes bs =>
    rw [part]
    exact if_neg fun hwidth => h (.inr ⟨bs, rfl, hwidth⟩)
  | null | bool _ | int _ | float _ | list _ | map _ => rfl

theorem exists_part_address (h : IsAccount v) : ∃ p, part .address v = .ok p := by
  rcases h with ⟨s, bs, rfl, hbs⟩ | ⟨bs, rfl, hwidth⟩
  · refine ⟨⟨false, Bytes.padLeft wordWidth bs⟩, ?_⟩
    simp only [part, hbs]
  · refine ⟨⟨false, Bytes.padLeft wordWidth bs⟩, ?_⟩
    rw [part, if_pos hwidth]

theorem parts_map : parts (fields.map Prod.fst) (fields.map Prod.snd) =
    fields.mapM fun field => part field.1 field.2 := by
  induction fields with
  | nil => rfl
  | cons field rest ih =>
    rw [List.map_cons, List.map_cons, List.mapM_cons, ← ih]
    rfl

theorem exists_mem_of_encode_eq_error
    (h : encode (fields.map Prod.fst) (fields.map Prod.snd) = .error fault) :
    ∃ field ∈ fields, part field.1 field.2 = .error fault := by
  have hparts := Except.eq_error_of_bind_pure h
  rw [parts_map] at hparts
  exact Except.exists_mem_of_mapM_eq_error hparts

theorem exists_part_of_encode_eq_ok {bs : Bytes}
    (h : encode (fields.map Prod.fst) (fields.map Prod.snd) = .ok bs) :
    ∀ field ∈ fields, ∃ p, part field.1 field.2 = .ok p := by
  obtain ⟨ps, h, -⟩ := Except.bind_eq_ok_iff.mp h
  rw [parts_map] at h
  exact Except.exists_of_mapM_eq_ok h

end MetaTx.Abi
