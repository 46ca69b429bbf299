import MetaTx.Text.Blank

/-!
# Decimal integers in text

Integers with more than some thousand digits are neither read nor written. There are two
readers. The loose one takes the decimal digits of every script (Unicode 14), a sign, and
single underscores between digits. The strict one takes ASCII digits: a number in its plain
form, or one that comes to it by dropping white space, zeros, underscores and an all-zero
fraction.
-/

namespace MetaTx.Text

/-- The zeros of the scripts that have decimal digits; nine digits follow each. -/
def scriptZeros : List Nat := [
  0x30, 0x660, 0x6F0, 0x7C0, 0x966, 0x9E6, 0xA66, 0xAE6, 0xB66, 0xBE6, 0xC66, 0xCE6, 0xD66,
  0xDE6, 0xE50, 0xED0, 0xF20, 0x1040, 0x1090, 0x17E0, 0x1810, 0x1946, 0x19D0, 0x1A80, 0x1A90,
  0x1B50, 0x1BB0, 0x1C40, 0x1C50, 0xA620, 0xA8D0, 0xA900, 0xA9D0, 0xA9F0, 0xAA50, 0xABF0, 0xFF10,
  0x104A0, 0x10D30, 0x11066, 0x110F0, 0x11136, 0x111D0, 0x112F0, 0x11450, 0x114D0, 0x11650,
  0x116C0, 0x11730, 0x118E0, 0x11950, 0x11C50, 0x11D50, 0x11DA0, 0x16A60, 0x16AC0, 0x16B50,
  0x1D7CE, 0x1D7D8, 0x1D7E2, 0x1D7EC, 0x1D7F6, 0x1E140, 0x1E2F0, 0x1E950, 0x1FBF0]

/-- The value of a decimal digit of any script. -/
def digitValue? (c : Char) : Option Nat :=
  scriptZeros.findSome? fun z =>
    if z ≤ c.toNat ∧ c.toNat < z + 10 then some (c.toNat - z) else none

/-- The value of a decimal digit of ASCII. -/
def asciiDigitValue? (c : Char) : Option Nat :=
  if '0' ≤ c ∧ c ≤ '9' then some (c.toNat - 48) else none

/-- Digits with single underscores between them, as their values. -/
def digitGroups? (value? : Char → Option Nat) : List Char → Option (List Nat)
  | [] => none
  | [c] => (value? c).map ([·])
  | c :: '_' :: rest => do
    let d ← value? c
    let ds ← digitGroups? value? rest
    return d :: ds
  | c :: rest => do
    let d ← value? c
    let ds ← digitGroups? value? rest
    return d :: ds

/-- The number that decimal digits spell. -/
def ofDigits (ds : List Nat) : Nat := ds.foldl (fun n d => n * 10 + d) 0

/-- The sign in front of a text, and what follows it. -/
def splitSign : List Char → Bool × List Char
  | '+' :: rest => (false, rest)
  | '-' :: rest => (true, rest)
  | cs => (false, cs)

def applySign (negative : Bool) (n : Nat) : Int := if negative then -(n : Int) else n

/-- How many digits an integer in text may have. -/
def maxDigits : Nat := 4300

/-- Whether an integer has few enough digits to be written. -/
def isWritable (n : Int) : Bool := (Nat.toDigits 10 n.natAbs).length ≤ maxDigits

/-- Reads an integer with digits of any script and white space around it. -/
def readInt? (s : String) : Option Int := do
  let (negative, cs) := splitSign (trim isWhiteSpace s.toList)
  let ds ← digitGroups? digitValue? cs
  if maxDigits < ds.length then none else return applySign negative (ofDigits ds)

/-- Why a text is no integer for the strict reader. -/
inductive IntRefusal
  | malformed
  | tooLong
  deriving DecidableEq

/-- Reads an integer with nothing around it: a minus sign may come first, and a zero is the
only digit where it is the first one. A number whose sign and digits are too many is refused
as such whatever follows it. -/
def readPlainInt (cs : List Char) : Except IntRefusal Int :=
  let (negative, digits) := match cs with
    | '-' :: rest => (true, rest)
    | _ => (false, cs)
  let run := (digits.map asciiDigitValue?).takeWhile Option.isSome
  match digits.head? with
  | none => .error .malformed
  | some '0' => if digits.length = 1 then .ok 0 else .error .malformed
  | some _ =>
    if maxDigits < run.length + (if negative then 1 else 0) then .error .tooLong
    else if run.isEmpty ∨ run.length < digits.length then .error .malformed
    else .ok (applySign negative (ofDigits run.reduceOption))

/-- What follows the zeros and underscores in front of a number, where `last` is the one read
last. At least one character is left of a number that has no other digit; a minus sign may
follow the zeros. -/
def dropLeadingZeros (last : Char) : List Char → Option (List Char)
  | [] => some [last]
  | c :: rest =>
    if c = '0' ∨ c = '_' then dropLeadingZeros c rest
    else if c = '-' ∨ ('1' ≤ c ∧ c ≤ '9') then some (c :: rest)
    else if c = '.' then some (last :: c :: rest)
    else none

/-- A number from its minus sign or first digit on, without zeros in front. -/
def significant? : List Char → Option (List Char)
  | '0' :: rest => dropLeadingZeros '0' rest
  | c :: rest => if c = '-' ∨ ('1' ≤ c ∧ c ≤ '9') then some (c :: rest) else none
  | [] => none

/-- Drops a fraction that has only zeros; a point with nothing behind it is refused. -/
def dropZeroFraction? (cs : List Char) : Option (List Char) :=
  match cs.dropWhile (· != '.') with
  | ['.'] => none
  | '.' :: zeros => some (if zeros.all (· == '0') then cs.takeWhile (· != '.') else cs)
  | _ => some cs

/-- Drops the underscores of a text in which each has a neighbour of another kind on both
sides. -/
def dropUnderscores? : List Char → Option (List Char)
  | [] => some []
  | ['_'] => none
  | '_' :: _ :: _ => none
  | c :: '_' :: d :: rest => if d = '_' then none else (dropUnderscores? (d :: rest)).map (c :: ·)
  | c :: rest => (dropUnderscores? rest).map (c :: ·)

/-- Drops one plus sign that no minus sign follows. -/
def dropPlus? : List Char → Option (List Char)
  | '+' :: '-' :: _ => none
  | '+' :: rest => some rest
  | cs => some cs

/-- The plain form of an integer that is written with white space around it, a plus sign, zeros
in front, an all-zero fraction or single underscores. -/
def plainForm? (cs : List Char) : Option (List Char) := do
  let unsigned ← dropPlus? (trim isWhiteSpace cs)
  let digits ← significant? unsigned
  let whole ← dropZeroFraction? digits
  dropUnderscores? whole

/-- Reads an integer with ASCII digits, in its plain form or in one that has a plain form. Only
a text that needs no change is refused for its length. -/
def readStrictInt (s : String) : Except IntRefusal Int :=
  match readPlainInt s.toList with
  | .error .malformed =>
    match (plainForm? s.toList).map readPlainInt with
    | some (.ok n) => .ok n
    | _ => .error .malformed
  | answer => answer

end MetaTx.Text
