import MetaTx.Error
import MetaTx.Proofs.Text.Integer

/-!
# Kinds of errors

Those who wait for a kind catch every error of that kind. An error whose wording tells an integer
with too many digits is not among them, because a fault stands in its place.
-/

namespace MetaTx

theorem ErrorKind.contains_lineage (kind : ErrorKind) : kind.lineage.contains kind = true := by
  rw [lineage]
  split <;> simp

namespace Error

theorem isA_of_kind? {e : Error} {kind : ErrorKind} (h : e.kind? = some kind) :
    e.isA kind = true := by
  rw [isA, h]
  exact kind.contains_lineage

theorem isA_encoding (cause : EncodingCause) : (Error.encoding cause).isA .encoding = true :=
  isA_of_kind? rfl

theorem isA_signing (cause : SigningCause) : (Error.signing cause).isA .signing = true :=
  isA_of_kind? rfl

/-! ## Telling integers -/

variable {n : Int} {e : Error}

theorem telling_of_writable (h : n.natAbs < Text.writeLimit) : e.telling (.int n) = e :=
  if_pos (Text.isWritable_iff.mpr h)

theorem telling_of_long (h : Text.writeLimit ≤ n.natAbs) :
    e.telling (.int n) = .fault .longInteger := by
  have hlong : (Value.int n).isWritable = false := Text.isWritable_eq_false_iff.mpr h
  rw [telling, hlong]
  rfl

end Error

namespace Value

variable {n : Int}

theorem log_of_writable (h : n.natAbs < Text.writeLimit) : (Value.int n).log = .ok () :=
  if_pos (Text.isWritable_iff.mpr h)

theorem log_of_long (h : Text.writeLimit ≤ n.natAbs) :
    (Value.int n).log = .error (.fault .longInteger) := by
  have hlong : (Value.int n).isWritable = false := Text.isWritable_eq_false_iff.mpr h
  rw [log, hlong]
  rfl

end Value

end MetaTx
