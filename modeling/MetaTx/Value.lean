import MetaTx.Bytes
import MetaTx.Number.Double

/-!
# Values of any kind

What callers hand in before it is checked: settings, request fields, transaction
fields and typed-data messages. A mapping keeps its entries in order. Texts are made of
Unicode characters, so each of them has a UTF-8 form; halves of surrogate pairs, which have
none, are no characters and stand in no text.
-/

namespace MetaTx

/-- A value of any kind. -/
inductive Value
  | null
  | bool (b : Bool)
  | int (n : Int)
  | float (x : Double)
  | text (s : String)
  | bytes (bs : Bytes)
  | list (items : List Value)
  | map (entries : List (String × Value))
  deriving Inhabited

namespace Value

/-- The entry of a mapping under a key, the first if there are several. -/
def get? (key : String) : List (String × Value) → Option Value
  | [] => none
  | (k, v) :: rest => if k = key then some v else get? key rest

theorem sizeOf_lt_of_get? {key : String} {entries : List (String × Value)} {v : Value}
    (h : get? key entries = some v) : sizeOf v < sizeOf (Value.map entries) := by
  induction entries with
  | nil => simp [get?] at h
  | cons e rest ih =>
    obtain ⟨k, w⟩ := e
    simp only [get?] at h
    split at h
    · cases h
      simp +arith
    · have := ih h
      simp only [Value.map.sizeOf_spec, List.cons.sizeOf_spec] at this ⊢
      omega

theorem sizeOf_null_lt_map (entries : List (String × Value)) :
    sizeOf Value.null < sizeOf (Value.map entries) := by
  cases entries <;> simp +arith

/-- The integer that a value equals as a number: truth values count as 0 and 1. -/
def asInteger? : Value → Option Int
  | .bool b => some (if b then 1 else 0)
  | .int n => some n
  | .float x => x.toInt?
  | _ => none

/-- Whether a value counts as present: nothing, zero and empty values do not. -/
def isTruthy : Value → Bool
  | .null => false
  | .bool b => b
  | .int n => n != 0
  | .float x => !x.isZero
  | .text s => s != ""
  | .bytes bs => !bs.isEmpty
  | .list items => !items.isEmpty
  | .map entries => !entries.isEmpty

end Value

end MetaTx
