import MetaTx.Field.Checked
import MetaTx.Text.Case
import MetaTx.Text.Integer

/-!
# Readers of fields

How values of any kind become integers, texts, byte strings and truth values. Numbers and
truth values are also taken from texts that spell them, texts also from the bytes of one.
-/

namespace MetaTx.Field.Reader

/-- The integer that a text spells. -/
def spelledInt (s : String) : Except Reason Int :=
  match Text.readStrictInt s with
  | .ok n => .ok n
  | .error .malformed => .error .unreadableInt
  | .error .tooLong => .error .oversizedInt

/-- The least number of 64 bits with a sign that is not one of 63 bits without. -/
def wordBound : Int := Nat.pow 2 63

/-- The integer that a float equals; it is to be below 64 bits. -/
def wholeInt (x : Double) : Except Reason Int :=
  if !x.isFinite then .error .notFinite
  else match x.toInt? with
    | none => .error .fractional
    | some n => if -wordBound < n ∧ n < wordBound then .ok n else .error .oversizedInt

/-- An integer, a truth value, a whole float, or a text that spells an integer. -/
def int : Reader Int
  | .int n => .ok n
  | .bool b => .ok (if b then 1 else 0)
  | .float x => wholeInt x
  | .text s => spelledInt s
  | .bytes bs =>
    match Bytes.toText? bs with
    | some s => spelledInt s
    | none => .error .unreadableInt
  | .null | .list _ | .map _ => .error .notInt

/-- The largest number of 256 bits. -/
def maxUint256 : Int := Bytes.limit 32 - 1

/-- An integer of 256 bits that is not negative. -/
def uint256 : Reader Int := fun v =>
  match int v with
  | .error reason => .error reason
  | .ok n =>
    if n < 0 then .error .tooSmall
    else if maxUint256 < n then .error .tooLarge
    else .ok n

/-- A text, or the bytes of one. -/
def text : Reader String
  | .text s => .ok s
  | .bytes bs =>
    match Bytes.toText? bs with
    | some s => .ok s
    | none => .error .badText
  | _ => .error .notText

/-- A text that is not empty. -/
def someText : Reader String := fun v =>
  match text v with
  | .ok s => if s = "" then .error .emptyText else .ok s
  | .error reason => .error reason

/-- A byte string, or its digits with or without a mark in front. -/
def bytes : Reader Bytes
  | .bytes bs => .ok bs
  | .text s =>
    match Hex.decode (Hex.dropMark s).toList with
    | .ok bs => .ok bs
    | .error position => .error (.rule (.hex position))
  | _ => .error .notBytes

/-- The words for truth. -/
def trueWords : List String := ["1", "on", "t", "true", "y", "yes"]

/-- The words for falsehood. -/
def falseWords : List String := ["0", "off", "f", "false", "n", "no"]

/-- The truth value that a text spells, in any case. -/
def spelledBool (s : String) : Except Reason Bool :=
  let word := String.ofList (s.toList.map Char.toLower)
  if trueWords.contains word then .ok true
  else if falseWords.contains word then .ok false
  else .error .unreadableBool

/-- The truth value that a number below 64 bits stands for. -/
def countedBool (n : Int) : Except Reason Bool :=
  if n = 1 then .ok true else if n = 0 then .ok false else .error .unreadableBool

/-- A truth value, one or zero, or a text that spells a truth value. -/
def bool : Reader Bool
  | .bool b => .ok b
  | .int n => if -wordBound ≤ n ∧ n < wordBound then countedBool n else .error .notBool
  | .float x =>
    match wholeInt x with
    | .ok n => countedBool n
    | .error _ => .error .notBool
  | .text s => spelledBool s
  | .bytes bs =>
    match Bytes.toText? bs with
    | some s => spelledBool s
    | none => .error .unreadableBool
  | .null | .list _ | .map _ => .error .notBool

/-- Nothing, or what another reader takes. -/
def orNothing {α : Type} (read : Reader α) : Reader (Option α)
  | .null => .ok none
  | v => (read v).map some

end MetaTx.Field.Reader
