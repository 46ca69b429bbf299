import MetaTx.Abi
import MetaTx.Proofs.Bytes.Number

/-!
# Reading contract ABI

A strict reader of laid out values, written without a look at how they are laid out. It follows
the offsets, and refuses whatever no layout has: numbers outside of their type, padding that is
not zero, an offset that does not point to where the values before it end, and bytes behind the
last value. Addresses are read as their 20 bytes.
-/

namespace MetaTx

/-! ## Types -/

mutual

/-- Whether values of a type stand behind the places of their tuple. -/
def AbiType.isDynamic : AbiType → Bool
  | .bytes => true
  | .tuple items => anyDynamic items
  | .uint _ | .int _ | .bool | .address | .word _ => false

def AbiType.anyDynamic : List AbiType → Bool
  | [] => false
  | type :: types => type.isDynamic || anyDynamic types

end

mutual

/-- How many bytes a value of a type has in the place for it. -/
def AbiType.placeWidth : AbiType → Nat
  | .tuple items => if anyDynamic items then Abi.wordWidth else placesWidth items
  | .uint _ | .int _ | .bool | .address | .word _ | .bytes => Abi.wordWidth

def AbiType.placesWidth : List AbiType → Nat
  | [] => 0
  | type :: types => type.placeWidth + placesWidth types

end

mutual

/-- Whether the values of a type fit the words that are meant for them. -/
def AbiType.isSized : AbiType → Bool
  | .uint bits => bits ≤ 256
  | .int bits => 0 < bits && bits ≤ 256
  | .word n => n ≤ Abi.wordWidth
  | .tuple items => areSized items
  | .bool | .address | .bytes => true

def AbiType.areSized : List AbiType → Bool
  | [] => true
  | type :: types => type.isSized && areSized types

end

namespace Abi

/-! ## Reading -/

/-- The number in the word at the start of a byte string. -/
def word? (bs : Bytes) : Option Nat :=
  if wordWidth ≤ bs.length then some (Bytes.toNat (bs.take wordWidth)) else none

/-- The integer whose complement form is a number. -/
def ofComplement (n : Nat) : Int :=
  if n < Nat.pow 2 255 then n else n - Bytes.limit wordWidth

/-- The least multiple of the word width that is not less. -/
def paddedWidth (n : Nat) : Nat := n + (wordWidth - n % wordWidth) % wordWidth

def isZeros (bs : Bytes) : Bool := bs.all (· == 0)

mutual

/-- Reads a value at the start of a byte string, and tells how many bytes it takes. -/
def read? : AbiType → Bytes → Option (Value × Nat)
  | .uint bits, bs => do
    let n ← word? bs
    if n < Nat.pow 2 bits then some (.int n, wordWidth) else none
  | .int bits, bs => do
    let n := ofComplement (← word? bs)
    if -Nat.pow 2 (bits - 1) ≤ n ∧ n < Nat.pow 2 (bits - 1) then some (.int n, wordWidth)
    else none
  | .bool, bs => do
    let n ← word? bs
    if n = 0 then some (.bool false, wordWidth)
    else if n = 1 then some (.bool true, wordWidth)
    else none
  | .address, bs => do
    let n ← word? bs
    if n < Bytes.limit Address.width then
      some (.bytes (Bytes.ofNat Address.width n), wordWidth)
    else none
  | .word n, bs =>
    if wordWidth ≤ bs.length ∧ isZeros ((bs.take wordWidth).drop n) then
      some (.bytes (bs.take n), wordWidth)
    else none
  | .bytes, bs => do
    let n ← word? bs
    let content := (bs.drop wordWidth).take (paddedWidth n)
    if content.length = paddedWidth n ∧ isZeros (content.drop n) then
      some (.bytes (content.take n), wordWidth + paddedWidth n)
    else none
  | .tuple types, bs => do
    let (vs, stop) ← readAll? types bs 0 (AbiType.placesWidth types)
    some (.list vs, stop)

/-- Reads the values of a tuple that starts with `frame`. The place of the next value is at
`place`, and what stands behind the places is read up to `free`. -/
def readAll? : List AbiType → (frame : Bytes) → (place free : Nat) → Option (List Value × Nat)
  | [], _, _, free => some ([], free)
  | type :: types, frame, place, free =>
    if type.isDynamic then do
      let offset ← word? (frame.drop place)
      if offset ≠ free then none
      else
        let (v, taken) ← read? type (frame.drop offset)
        let (vs, stop) ← readAll? types frame (place + wordWidth) (free + taken)
        some (v :: vs, stop)
    else do
      let (v, taken) ← read? type (frame.drop place)
      let (vs, stop) ← readAll? types frame (place + taken) free
      some (v :: vs, stop)

end

/-- Reads values that are laid out in a byte string with nothing left over. -/
def decode? (types : List AbiType) (bs : Bytes) : Option (List Value) :=
  match readAll? types bs 0 (AbiType.placesWidth types) with
  | some (vs, stop) => if stop = bs.length then some vs else none
  | none => none

mutual

/-- A value as it is read: an address as its bytes, a word with all of its bytes. -/
def shown : AbiType → Value → Value
  | .address, .text s => .bytes ((Address.ofText? s).getD [])
  | .word n, .bytes bs => .bytes (Bytes.padRight n bs)
  | .tuple types, .list items => .list (shownAll types items)
  | _, v => v

def shownAll : List AbiType → List Value → List Value
  | type :: types, v :: vs => shown type v :: shownAll types vs
  | _, _ => []

end

end Abi

end MetaTx
