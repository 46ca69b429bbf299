import MetaTx.Address

/-!
# Contract ABI

Values laid out in words of 32 bytes for a contract. A value of fixed size stands in its
place. A value of variable size stands behind all places of its tuple, and its place
holds the offset at which it starts there. Values are checked against their types on the
way.
-/

namespace MetaTx

/-- The types of arguments that calls here have. -/
inductive AbiType
  | uint (bits : Nat)
  | int (bits : Nat)
  | bool
  | address
  /-- As many bytes as told. -/
  | word (bytes : Nat)
  /-- Any number of bytes. -/
  | bytes
  | tuple (items : List AbiType)

namespace Abi

/-- The number of bytes of a word. -/
def wordWidth : Nat := 32

/-- A number in one word. -/
def numberWord (n : Nat) : Bytes := Bytes.ofNat wordWidth n

/-- An integer in one word, negative ones as their complement. -/
def integerWord (n : Int) : Bytes := numberWord (n % Bytes.limit wordWidth).toNat

/-- A value in its tuple: its bytes, and whether they stand behind the places. -/
structure Part where
  isDynamic : Bool
  body : Bytes

namespace Part

/-- How many bytes the place of a part has. -/
def placeWidth (part : Part) : Nat := if part.isDynamic then wordWidth else part.body.length

end Part

/-- The places of parts, the next part behind them being at an offset. -/
def places : (offset : Nat) → List Part → Bytes
  | _, [] => []
  | offset, part :: rest =>
    if part.isDynamic then numberWord offset ++ places (offset + part.body.length) rest
    else part.body ++ places offset rest

/-- What stands behind the places. -/
def behind (parts : List Part) : Bytes :=
  (parts.filter Part.isDynamic).flatMap Part.body

/-- How many bytes the places of parts have. -/
def placesWidth : List Part → Nat
  | [] => 0
  | part :: rest => part.placeWidth + placesWidth rest

/-- The layout of a tuple. -/
def layout (parts : List Part) : Bytes := places (placesWidth parts) parts ++ behind parts

/-- An integer from `low` up to below `high`. -/
def integer (low high : Int) : Value → Except Fault Part
  | .int n => if low ≤ n ∧ n < high then .ok ⟨false, integerWord n⟩ else .error .abiRange
  | _ => .error .abiType

mutual

/-- A value in its tuple. -/
def part : AbiType → Value → Except Fault Part
  | .uint bits, v => integer 0 (Nat.pow 2 bits) v
  | .int bits, v => integer (-Nat.pow 2 (bits - 1)) (Nat.pow 2 (bits - 1)) v
  | .bool, .bool b => .ok ⟨false, numberWord b.toNat⟩
  | .address, .text s =>
    match Address.ofText? s with
    | some bs => .ok ⟨false, Bytes.padLeft wordWidth bs⟩
    | none => .error .abiType
  | .address, .bytes bs =>
    if bs.length = Address.width then .ok ⟨false, Bytes.padLeft wordWidth bs⟩
    else .error .abiType
  | .word n, .bytes bs =>
    if bs.length ≤ n then .ok ⟨false, Bytes.padRight wordWidth bs⟩ else .error .abiRange
  | .bytes, .bytes bs =>
    .ok ⟨true, numberWord bs.length ++ Bytes.padToMultiple wordWidth bs⟩
  | .tuple types, .list items => do
    let parts ← parts types items
    return ⟨parts.any Part.isDynamic, layout parts⟩
  | _, _ => .error .abiType

/-- The values of a tuple, one for each type. -/
def parts : List AbiType → List Value → Except Fault (List Part)
  | [], [] => .ok []
  | type :: types, v :: vs => do
    let first ← part type v
    let rest ← parts types vs
    return first :: rest
  | _, _ => .error .abiType

end

/-- The layout of values. -/
def encode (types : List AbiType) (values : List Value) : Except Fault Bytes := do
  return layout (← parts types values)

end Abi

end MetaTx
