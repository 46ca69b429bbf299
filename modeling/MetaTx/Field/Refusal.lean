import MetaTx.Value.Literal

/-!
# Refused fields

Records are built from values of any kind, and every field that fails is reported with
its reason. A reason has a code for callers to tell it by, and a rule of the record
itself has a text as well.
-/

namespace MetaTx.Field

/-- A rule of a record that a value broke. -/
inductive Rule
  /-- An address of bytes that are not 20. -/
  | addressWidth (length : Nat)
  | address (given : Value)
  /-- An address in mixed case that is not its checksummed form. -/
  | addressCase (given : Value)
  /-- Hexadecimal text that stops being readable at a position. -/
  | hex (position : Nat)
  | bothExpiries
  | noExpiry
  /-- The largest timestamp stands for no expiry and is not to be given as one. -/
  | endlessTime

/-- What is told of a value that cannot be written. -/
def unwritable : String :=
  s!"Exceeds the limit ({Text.maxDigits} digits) for integer string conversion; " ++
    "use sys.set_int_max_str_digits() to increase the limit"

def Rule.message : Rule → String
  | addressWidth length => s!"address must be 20 bytes, got {length}"
  | address given =>
    if given.isWritable then "invalid address: " ++ given.literal else unwritable
  | addressCase given => "address checksum mismatch: " ++ given.literal
  | hex position =>
    "invalid hex string: non-hexadecimal number found in fromhex() arg at position " ++
      toString position
  | bothExpiries => "set either valid_until_time or no_expiry, not both"
  | noExpiry => "valid_until_time is required unless no_expiry is set"
  | endlessTime => "max uint256 is not a timestamp; use no_expiry to disable expiry"

/-- Why a value does not fit a field. -/
inductive Reason
  | missing
  | notText
  /-- Bytes that are no UTF-8. -/
  | badText
  | emptyText
  | notBytes
  | notInt
  | unreadableInt
  /-- A number with too many digits, or a float beyond 64 bits. -/
  | oversizedInt
  | fractional
  | notFinite
  | tooSmall
  | tooLarge
  | notBool
  | unreadableBool
  /-- The record is built and its fields no longer change. -/
  | fixed
  | rule (broken : Rule)

def Reason.code : Reason → String
  | missing => "missing"
  | notText => "string_type"
  | badText => "string_unicode"
  | emptyText => "string_too_short"
  | notBytes => "bytes_type"
  | notInt => "int_type"
  | unreadableInt => "int_parsing"
  | oversizedInt => "int_parsing_size"
  | fractional => "int_from_float"
  | notFinite => "finite_number"
  | tooSmall => "greater_than_equal"
  | tooLarge => "less_than_equal"
  | notBool => "bool_type"
  | unreadableBool => "bool_parsing"
  | fixed => "frozen_instance"
  | rule _ => "value_error"

/-- A refusal of one field, or of the whole record if none is named. -/
structure Refusal where
  field? : Option String
  reason : Reason

end MetaTx.Field
