import MetaTx.Value.Literal

/-!
# JSON text

A value as JSON, with each entry on a line of its own, two blanks further in than what it
belongs to. The text holds visible characters of ASCII only: others are escaped by their
UTF-16 units. Byte strings, which JSON lacks, are written as hexadecimal text.
-/

namespace MetaTx.Value

/-- The UTF-16 units of a character. -/
def utf16Units (c : Char) : List Nat :=
  let n := c.toNat
  if n < 0x10000 then [n]
  else [0xD800 + (n - 0x10000) / 0x400, 0xDC00 + (n - 0x10000) % 0x400]

/-- A character inside a JSON text. -/
def jsonEscaped (c : Char) : String :=
  match c with
  | '"' => "\\\""
  | '\\' => "\\\\"
  | '\n' => "\\n"
  | '\r' => "\\r"
  | '\t' => "\\t"
  | '\x08' => "\\b"
  | '\x0c' => "\\f"
  | c =>
    if ' ' ≤ c ∧ c ≤ '~' then String.singleton c
    else String.join ((utf16Units c).map fun unit => "\\u" ++ Text.hexDigits 4 unit)

def jsonQuoted (s : String) : String :=
  "\"" ++ String.join (s.toList.map jsonEscaped) ++ "\""

/-- The start of a line at a depth. -/
def jsonBreak (depth : Nat) : String := "\n" ++ String.ofList (List.replicate (2 * depth) ' ')

/-- What belongs to a value at a depth, between its brackets. -/
def jsonBlock (depth : Nat) (first last : String) (parts : List String) : String :=
  if parts.isEmpty then first ++ last
  else
    let inner := jsonBreak (depth + 1)
    first ++ inner ++ ("," ++ inner).intercalate parts ++ jsonBreak depth ++ last

mutual

/-- A value as JSON, at a depth. -/
def json (depth : Nat) : Value → String
  | .null => "null"
  | .bool b => if b then "true" else "false"
  | .int n => toString n
  | .float x => x.toText floatFormat
  | .text s => jsonQuoted s
  | .bytes bs => jsonQuoted (Hex.render bs)
  | .list items => jsonBlock depth "[" "]" (jsonItems (depth + 1) items)
  | .map entries => jsonBlock depth "\x7b" "\x7d" (jsonEntries (depth + 1) entries)

def jsonItems (depth : Nat) : List Value → List String
  | [] => []
  | v :: rest => json depth v :: jsonItems depth rest

def jsonEntries (depth : Nat) : List (String × Value) → List String
  | [] => []
  | (key, v) :: rest => (jsonQuoted key ++ ": " ++ json depth v) :: jsonEntries depth rest

end

end MetaTx.Value
