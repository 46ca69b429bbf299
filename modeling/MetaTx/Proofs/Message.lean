import Mathlib.Data.String.Basic
import MetaTx.Message
import MetaTx.Proofs.Bytes.Number

/-!
# Messages are told by their hashed bytes

The content of a personal message follows its length without a mark between them, and may start
with digits itself. No two messages share their bytes for all that. The length of a longer message
has at least as many digits, so all bytes together are more for it, and their number tells where the
content starts. The two hashes of a structured request have a fixed width.
-/

namespace MetaTx

/-! ## Numbers in decimal digits -/

namespace Bytes

/-- Decimal digits have a byte each. -/
theorem length_ofText_ofList {cs : List Char} (h : ∀ c ∈ cs, c.isDigit = true) :
    (ofText (String.ofList cs)).length = cs.length := by
  change (String.ofList cs).utf8ByteSize = cs.length
  rw [String.utf8ByteSize_ofList]
  induction cs with
  | nil => rfl
  | cons c cs ih =>
    obtain ⟨hc, hcs⟩ := List.forall_mem_cons.mp h
    have hsize : c.utf8Size = 1 := by
      simp only [Char.isDigit, Bool.and_eq_true, decide_eq_true_eq] at hc
      have hlow : c.val ≤ 127 := UInt32.le_trans hc.2 (by decide)
      exact if_pos hlow
    change String.utf8Len cs + c.utf8Size = cs.length + 1
    rw [ih hcs, hsize]

theorem length_ofText_toString (n : Nat) :
    (ofText (toString n)).length = (Nat.toDigits 10 n).length := by
  rw [Nat.toString_eq_ofList_toDigits]
  exact length_ofText_ofList fun c hc => Nat.isDigit_of_mem_toDigits (by decide) (by decide) hc

theorem length_ofText_toString_mono {m n : Nat} (h : m ≤ n) :
    (ofText (toString m)).length ≤ (ofText (toString n)).length := by
  have hbase : 1 < 10 := by decide
  have hn : n < 10 ^ (Nat.toDigits 10 n).length :=
    (Nat.length_toDigits_le_iff hbase Nat.length_toDigits_pos).mp (Nat.le_refl _)
  rw [length_ofText_toString, length_ofText_toString,
    Nat.length_toDigits_le_iff hbase Nat.length_toDigits_pos]
  exact Nat.lt_of_le_of_lt h hn

end Bytes

namespace Message

/-! ## Personal messages -/

/-- A length and a content behind it are told by all of their bytes. -/
theorem eq_of_counted_eq {m n : Bytes}
    (h : Bytes.ofText (toString m.length) ++ m = Bytes.ofText (toString n.length) ++ n) : m = n := by
  have htotal := congrArg List.length h
  rw [List.length_append, List.length_append] at htotal
  have hlen : m.length = n.length := by
    -- The longer content has the longer length in front, and cannot make up for it.
    rcases Nat.le_total m.length n.length with hle | hle
    · have := Bytes.length_ofText_toString_mono hle
      omega
    · have := Bytes.length_ofText_toString_mono hle
      omega
  exact (List.append_inj h (by rw [hlen])).2

theorem personal_inj {m n : Bytes} (h : personal m = personal n) : m = n := by
  rw [personal, personal, List.append_assoc, List.append_assoc] at h
  exact eq_of_counted_eq (List.append_cancel_left h)

/-! ## Structured requests -/

theorem structured_inj {domain domain' content content' : Bytes}
    (hlen : domain.length = domain'.length)
    (h : structured domain content = structured domain' content') :
    domain = domain' ∧ content = content' := by
  rw [structured, structured, List.append_assoc, List.append_assoc] at h
  exact List.append_inj (List.append_cancel_left h) hlen

/-- The second byte tells the two kinds of messages apart. -/
theorem personal_ne_structured (message domain content : Bytes) :
    personal message ≠ structured domain content := by
  intro h
  have hpersonal : (personal message)[1]? = some 0x45 := rfl
  have hstructured : (structured domain content)[1]? = some 0x01 := rfl
  rw [h, hstructured] at hpersonal
  exact absurd hpersonal (by decide)

end Message

end MetaTx
