import MetaTx.Bytes
import MetaTx.Number.Digits
import MetaTx.Text.Blank
import MetaTx.Hash.Sha256

/-!
# Base 58

A byte string as a number in base 58 with an alphabet that avoids look-alikes. Each
zero byte in front is a `1` of its own. The checked form carries four more bytes, the
start of the double SHA-256 hash of the payload.
-/

namespace MetaTx.Base58

def alphabet : List Char :=
  "123456789ABCDEFGHJKLMNPQRSTUVWXYZabcdefghijkmnopqrstuvwxyz".toList

def char (d : Nat) : Char := alphabet.getD d '1'

def digit? (c : Char) : Option Nat := alphabet.findIdx? (· == c)

def encode (bs : Bytes) : List Char :=
  (bs.takeWhile (· == 0)).map (fun _ => '1') ++
    ((Digits.ofNat 58 (Bytes.toNat bs)).map char).reverse

/-- Reads base 58. Blanks at the end are ignored. -/
def decode? (cs : List Char) : Option Bytes := do
  let cs := Text.dropTrailing Text.isBlank cs
  let ds ← cs.mapM digit?
  let zeros := (cs.takeWhile (· == '1')).map fun _ => 0
  return zeros ++ Bytes.minimal (Digits.toNat 58 ds.reverse)

/-- How many bytes the checked form adds. -/
def checkLength : Nat := 4

/-- The first four bytes of the double SHA-256 hash. -/
def check (payload : Bytes) : Bytes := (Sha256.hash (Sha256.hash payload)).take checkLength

def encodeChecked (payload : Bytes) : String :=
  String.ofList (encode (payload ++ check payload))

/-- Why a checked text is refused. -/
inductive Refusal
  | malformed
  | tooShort
  | mismatch
  deriving DecidableEq

/-- Reads the checked form. -/
def decodeChecked (s : String) : Except Refusal Bytes :=
  match decode? s.toList with
  | none => .error .malformed
  | some raw =>
    if raw.length < checkLength then .error .tooShort
    else
      let payload := raw.take (raw.length - checkLength)
      if check payload = raw.drop (raw.length - checkLength) then .ok payload
      else .error .mismatch

end MetaTx.Base58
