import MetaTx.Text.Printable
import MetaTx.Bytes.Hex

/-!
# Quoted text

A text or byte string between quotes on one line: single quotes, unless it holds a
single quote and no double one. Characters that cannot be shown are escaped by
their number.
-/

namespace MetaTx.Text

/-- The quote that a text with these characters is put in. -/
def quoteFor (cs : List Char) : Char :=
  if cs.contains '\'' && !cs.contains '"' then '"' else '\''

/-- The digits of a number, with zeros in front up to a width. -/
def hexDigits (width n : Nat) : String :=
  let ds := Nat.toDigits 16 n
  String.ofList (List.replicate (width - ds.length) '0' ++ ds)

/-- The escape of a character that has one of its own inside `quote`. -/
def escape? (quote c : Char) : Option String :=
  if c = quote then some (String.ofList ['\\', c])
  else match c with
    | '\\' => some "\\\\"
    | '\n' => some "\\n"
    | '\r' => some "\\r"
    | '\t' => some "\\t"
    | _ => none

def quoteChar (quote c : Char) : String :=
  match escape? quote c with
  | some s => s
  | none =>
    if isPrintable c then String.singleton c
    else if c.toNat < 0x100 then "\\x" ++ hexDigits 2 c.toNat
    else if c.toNat < 0x10000 then "\\u" ++ hexDigits 4 c.toNat
    else "\\U" ++ hexDigits 8 c.toNat

/-- A text between quotes. -/
def quoted (s : String) : String :=
  let quote := quoteFor s.toList
  let inner := String.join (s.toList.map (quoteChar quote))
  String.singleton quote ++ inner ++ String.singleton quote

def quoteByte (quote : Char) (b : UInt8) : String :=
  let c := Char.ofNat b.toNat
  match escape? quote c with
  | some s => s
  | none => if 32 ≤ b && b < 127 then String.singleton c else "\\x" ++ hexDigits 2 b.toNat

/-- A byte string between quotes, marked by a `b` in front. -/
def quotedBytes (bs : Bytes) : String :=
  let quote := quoteFor (bs.map (Char.ofNat ·.toNat))
  let inner := String.join (bs.map (quoteByte quote))
  "b" ++ String.singleton quote ++ inner ++ String.singleton quote

end MetaTx.Text
