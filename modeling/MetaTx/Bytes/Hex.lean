import MetaTx.Bytes

/-!
# Hexadecimal text

Two digits a byte, lower case when written. When read, white space of ASCII may
stand between bytes but not inside one, and a refusal names the position of the
first character that cannot be read.
-/

namespace MetaTx.Hex

/-- The lower-case digit of a number below sixteen. -/
def digit (n : Nat) : Char :=
  if n < 10 then Char.ofNat (48 + n) else Char.ofNat (87 + n)

def digitValue? (c : Char) : Option Nat :=
  if '0' ≤ c ∧ c ≤ '9' then some (c.toNat - 48)
  else if 'a' ≤ c ∧ c ≤ 'f' then some (c.toNat - 87)
  else if 'A' ≤ c ∧ c ≤ 'F' then some (c.toNat - 55)
  else none

def isDigit (c : Char) : Bool := (digitValue? c).isSome

/-- Two digits for each byte. -/
def encode : Bytes → List Char
  | [] => []
  | b :: bs => digit (b.toNat / 16) :: digit (b.toNat % 16) :: encode bs

/-- The digits of a byte string, without a mark in front. -/
def bare (bs : Bytes) : String := String.ofList (encode bs)

/-- The digits of a byte string behind `0x`. -/
def render (bs : Bytes) : String := "0x" ++ bare bs

/-- The digits of a number without leading zeros; zero has one digit. -/
def ofNat (n : Nat) : String := String.ofList (Nat.toDigits 16 n)

/-- White space of ASCII. -/
def isBlank (c : Char) : Bool :=
  c == ' ' || c == '\t' || c == '\n' || c == '\x0b' || c == '\x0c' || c == '\r'

/-- Reads bytes from position `pos` on. The error is the position of
the first character that is no digit where one is needed; the end counts as one. -/
def decodeFrom : (pos : Nat) → List Char → Except Nat Bytes
  | _, [] => .ok []
  | pos, [c] =>
    if isBlank c then .ok []
    else if isDigit c then .error (pos + 1) else .error pos
  | pos, c :: d :: rest =>
    if isBlank c then decodeFrom (pos + 1) (d :: rest)
    else match digitValue? c, digitValue? d with
      | none, _ => .error pos
      | some _, none => .error (pos + 1)
      | some hi, some lo =>
        (decodeFrom (pos + 2) rest).map ((hi * 16 + lo).toUInt8 :: ·)

/-- Reads bytes. A character outside ASCII is reported before any other. -/
def decode (cs : List Char) : Except Nat Bytes :=
  match cs.findIdx? (fun c => 128 ≤ c.toNat) with
  | some pos => .error pos
  | none => decodeFrom 0 cs

/-- A text without one leading `0x`. -/
def dropMark (s : String) : String :=
  match s.toList with
  | '0' :: 'x' :: rest => String.ofList rest
  | _ => s

/-- Digits without a leading `0x` or `0X`. -/
def dropAnyMark : List Char → List Char
  | '0' :: 'x' :: rest => rest
  | '0' :: 'X' :: rest => rest
  | cs => cs

/-- Bytes from digits alone, an odd one out standing for a byte of its own in front. -/
def decodeDigits? (cs : List Char) : Option Bytes :=
  let cs := if cs.length % 2 = 0 then cs else '0' :: cs
  if cs.all isDigit then (decodeFrom 0 cs).toOption else none

/-- The number that digits spell; the empty list spells none. -/
def number? (cs : List Char) : Option Nat :=
  if cs.isEmpty || !cs.all isDigit then none
  else some (cs.foldl (fun n c => n * 16 + (digitValue? c).getD 0) 0)

end MetaTx.Hex
