import MetaTx.Bytes

/-!
# Recursive length prefixes

A tree of byte strings as one byte string: each string and each list has its length in
front, and a single byte below `0x80` stands for itself.
-/

namespace MetaTx.Rlp

/-- What can be encoded: byte strings, and lists of items. -/
inductive Item
  | bytes (bs : Bytes)
  | list (items : List Item)

/-- The mark in front of strings. -/
def stringMark : Nat := 0x80

/-- The mark in front of lists. -/
def listMark : Nat := 0xc0

/-- The greatest length that is written within the mark. -/
def maxShort : Nat := 55

/-- A length behind a mark: within it if it is short, else in bytes of its own. -/
def header (mark length : Nat) : Bytes :=
  if length ≤ maxShort then [(mark + length).toUInt8]
  else
    let digits := Bytes.minimal length
    (mark + maxShort + digits.length).toUInt8 :: digits

/-- Whether a byte string stands for itself. -/
def isBare : Bytes → Bool
  | [b] => b < 0x80
  | _ => false

def encodeBytes (bs : Bytes) : Bytes :=
  if isBare bs then bs else header stringMark bs.length ++ bs

mutual

def encode : Item → Bytes
  | .bytes bs => encodeBytes bs
  | .list items =>
    let payload := encodeAll items
    header listMark payload.length ++ payload

def encodeAll : List Item → Bytes
  | [] => []
  | item :: rest => encode item ++ encodeAll rest

end

/-- A number in as few bytes as it needs. -/
def Item.ofNat (n : Nat) : Item := .bytes (Bytes.minimal n)

end MetaTx.Rlp
