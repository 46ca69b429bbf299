import MetaTx.Der

/-!
# Object identifiers

The numbers that name algorithms and curves, each below one given to it by the number in
front. In their encoding the first two share a place, and each place is a number of base 128
whose bytes but the last have their high bit set.
-/

namespace MetaTx.Der

/-- An object identifier, from its root on. -/
abbrev ObjectId := List Nat

namespace ObjectId

/-- How many bytes an identifier may have. -/
def maxWidth : Nat := 63

/-- The numbers of the places, of which the first has begun with digits that make `n`. No
number starts with a digit zero that it does not need. -/
def places? : (n : Nat) → Bytes → Option (List Nat)
  | n, [] => if n = 0 then some [] else none
  | n, b :: rest =>
    if n = 0 ∧ b = 0x80 then none
    else if b < 0x80 then (places? 0 rest).map ((n * 0x80 + b.toNat) :: ·)
    else places? (n * 0x80 + (b.toNat - 0x80)) rest

/-- The first two numbers, by the place that they share: the first is two at most, and the
second below 40 unless the first is two. -/
def firstTwo (n : Nat) : List Nat := if n < 80 then [n / 40, n % 40] else [2, n - 80]

/-- Reads the content of an object identifier. -/
def ofContent? (content : Bytes) : Option ObjectId :=
  if maxWidth < content.length then none
  else match places? 0 content with
    | some (n :: rest) =>
      if (n :: rest).all (· < Bytes.limit 16) then some (firstTwo n ++ rest) else none
    | _ => none

end ObjectId

end MetaTx.Der
