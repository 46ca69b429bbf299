/-!
# Byte strings

A byte string is a list of bytes. Numbers are written in it most significant
byte first, either in a fixed number of bytes or in as few as they need.
-/

namespace MetaTx

abbrev Bytes := List UInt8

namespace Bytes

/-- The number that a byte string spells, most significant byte first. -/
def toNat (bs : Bytes) : Nat := bs.foldl (fun n b => n * 256 + b.toNat) 0

/-- The low `width` bytes of a number, least significant first. -/
def littleEndian : (width n : Nat) → Bytes
  | 0, _ => []
  | width + 1, n => n.toUInt8 :: littleEndian width (n / 256)

/-- The low `width` bytes of a number, most significant first. -/
def ofNat (width n : Nat) : Bytes := (littleEndian width n).reverse

/-- The least number that needs more than `width` bytes. -/
def limit (width : Nat) : Nat := Nat.pow 256 width

/-- How many bytes a number needs; zero needs none. -/
def widthOf (n : Nat) : Nat := if n = 0 then 0 else n.log2 / 8 + 1

/-- A number in as few bytes as it needs; zero is the empty string. -/
def minimal (n : Nat) : Bytes := ofNat (widthOf n) n

/-- A number in as few bytes as it needs, but at least one. -/
def ofNumber (n : Nat) : Bytes := if n = 0 then [0] else minimal n

/-- Zero bytes in front up to `width`; longer strings are left alone. -/
def padLeft (width : Nat) (bs : Bytes) : Bytes :=
  List.replicate (width - bs.length) 0 ++ bs

/-- Zero bytes behind up to `width`; longer strings are left alone. -/
def padRight (width : Nat) (bs : Bytes) : Bytes :=
  bs ++ List.replicate (width - bs.length) 0

/-- Zero bytes behind up to the next multiple of `width`. -/
def padToMultiple (width : Nat) (bs : Bytes) : Bytes :=
  bs ++ List.replicate ((width - bs.length % width) % width) 0

/-- Bytewise exclusive or, as long as the shorter of the two. -/
def xor (a b : Bytes) : Bytes := List.zipWith (· ^^^ ·) a b

/-- The UTF-8 bytes of a text. -/
def ofText (s : String) : Bytes := s.toUTF8.data.toList

/-- The text whose UTF-8 bytes these are, if there is one. -/
def toText? (bs : Bytes) : Option String := String.fromUTF8? ⟨bs.toArray⟩

theorem length_littleEndian (width n : Nat) : (littleEndian width n).length = width := by
  induction width generalizing n with
  | zero => rfl
  | succ width ih => simp [littleEndian, ih]

@[simp] theorem length_ofNat (width n : Nat) : (ofNat width n).length = width := by
  simp [ofNat, length_littleEndian]

end Bytes

end MetaTx
