import MetaTx.Bytes

/-!
# Base 64 with the alphabet for addresses

Written with padding. When read, `+` and `/` count as `-` and `_`, other characters
outside the alphabet are dropped, and nothing after the padding is looked at.
-/

namespace MetaTx.Base64Url

def alphabet : List Char :=
  "ABCDEFGHIJKLMNOPQRSTUVWXYZabcdefghijklmnopqrstuvwxyz0123456789-_".toList

def char (d : Nat) : Char := alphabet.getD d 'A'

/-- The six bits of a character of either alphabet. -/
def digit? (c : Char) : Option Nat :=
  if c = '+' then some 62
  else if c = '/' then some 63
  else alphabet.findIdx? (· == c)

/-- Four characters for three bytes; one or two at the end are padded. -/
def encode : Bytes → List Char
  | [] => []
  | [a] => [char (a.toNat / 4), char (a.toNat % 4 * 16), '=', '=']
  | [a, b] =>
    [char (a.toNat / 4), char (a.toNat % 4 * 16 + b.toNat / 16), char (b.toNat % 16 * 4), '=']
  | a :: b :: c :: rest =>
    char (a.toNat / 4) :: char (a.toNat % 4 * 16 + b.toNat / 16) ::
      char (b.toNat % 16 * 4 + c.toNat / 64) :: char (c.toNat % 64) :: encode rest

/-- Reads on with the digits of the group begun so far and the number of paddings seen
since. A group needs two digits before a padding can end the text. -/
def decodeFrom? : (begun : List Nat) → (pads : Nat) → List Char → Option Bytes
  | [], _, [] => some []
  | _, _, [] => none
  | begun, pads, '=' :: rest =>
    match begun with
    | [a, b] =>
      if pads + 1 < 2 then decodeFrom? begun (pads + 1) rest
      else some [(a * 4 + b / 16).toUInt8]
    | [a, b, c] => some [(a * 4 + b / 16).toUInt8, (b * 16 + c / 4).toUInt8]
    | _ => decodeFrom? begun pads rest
  | begun, pads, c :: rest =>
    match digit? c with
    | none => decodeFrom? begun pads rest
    | some d =>
      match begun with
      | [x, y, z] =>
        (decodeFrom? [] 0 rest).map fun bs =>
          (x * 4 + y / 16).toUInt8 :: (y * 16 + z / 4).toUInt8 :: (z * 64 + d).toUInt8 :: bs
      | _ => decodeFrom? (begun ++ [d]) 0 rest

def decode? (cs : List Char) : Option Bytes := decodeFrom? [] 0 cs

end MetaTx.Base64Url
