/-!
# Double-precision numbers

A double is kept as its 64 bits, so that two of them are told apart by what they
hold. Decoded, a finite one is a sign, a mantissa and a power of two.
-/

namespace MetaTx

/-- A double, by its bits. -/
structure Double where
  bits : UInt64
  deriving DecidableEq

namespace Double

/-- What the bits of a double stand for. -/
inductive Shape
  /-- The number `mantissa * 2 ^ exponent` under its sign. -/
  | finite (negative : Bool) (mantissa : Nat) (exponent : Int)
  | infinite (negative : Bool)
  | nan

def ofFloat (x : Float) : Double := ⟨x.toBits⟩

/-- The bit of a mantissa that is not stored. -/
def hiddenBit : Nat := Nat.pow 2 52

def shape (d : Double) : Shape :=
  let n := d.bits.toNat
  let negative := Nat.pow 2 63 ≤ n
  let biased : Nat := n / hiddenBit % Nat.pow 2 11
  let fraction : Nat := n % hiddenBit
  if biased = 2047 then if fraction = 0 then .infinite negative else .nan
  else if biased = 0 then .finite negative fraction (-1074)
  else .finite negative (fraction + hiddenBit) ((biased : Int) - 1075)

/-- The integer that a finite double equals, if it has no fraction. -/
def toInt? (d : Double) : Option Int :=
  match d.shape with
  | .finite negative m e =>
    let n? : Option Nat := if 0 ≤ e then some (m * Nat.pow 2 e.toNat)
      else if m % Nat.pow 2 (-e).toNat = 0 then some (m / Nat.pow 2 (-e).toNat) else none
    n?.map fun (n : Nat) => if negative then -(n : Int) else (n : Int)
  | _ => none

def isFinite (d : Double) : Bool :=
  match d.shape with
  | .finite .. => true
  | _ => false

def isZero (d : Double) : Bool := d.toInt? == some 0

end Double

end MetaTx
