import MetaTx.Bytes

/-!
# AES with keys of 128 bits

The block cipher on 16 bytes, which are the columns of a square one after another. Bytes
are elements of the field of 256 elements. Every round substitutes bytes by their inverse
in the field, turned over bit by bit, shifts the rows, mixes the columns and adds a key.
-/

namespace MetaTx.Aes128

abbrev Block := Vector UInt8 16

/-! ## The field -/

/-- The product with `x`. -/
def timesX (a : UInt8) : UInt8 := (a <<< 1) ^^^ (if a < 0x80 then 0 else 0x1b)

/-- Adds to `acc` the product of `a` with the low `n` bits of `b`. -/
def mulLoop : (n : Nat) → (a b acc : UInt8) → UInt8
  | 0, _, _, acc => acc
  | n + 1, a, b, acc =>
    mulLoop n (timesX a) (b >>> 1) (if b &&& 1 = 1 then acc ^^^ a else acc)

def mul (a b : UInt8) : UInt8 := mulLoop 8 a b 0

/-- The inverse, as a power; zero is its own inverse. -/
def inverse (a : UInt8) : UInt8 :=
  let a2 := mul a a
  let a4 := mul a2 a2
  let a8 := mul a4 a4
  let a16 := mul a8 a8
  let a32 := mul a16 a16
  let a64 := mul a32 a32
  let a128 := mul a64 a64
  mul a2 (mul a4 (mul a8 (mul a16 (mul a32 (mul a64 a128)))))

/-! ## Steps of a round -/

def rotl (a n : UInt8) : UInt8 := (a <<< n) ||| (a >>> (8 - n))

/-- What a byte is substituted by. -/
def substitute (a : UInt8) : UInt8 :=
  let b := inverse a
  b ^^^ rotl b 1 ^^^ rotl b 2 ^^^ rotl b 3 ^^^ rotl b 4 ^^^ 0x63

/-- What a byte was substituted for. -/
def restore (a : UInt8) : UInt8 :=
  inverse (rotl a 1 ^^^ rotl a 3 ^^^ rotl a 6 ^^^ 0x05)

/-- Shifts row `r` by `r` places to the left. -/
def shiftRows (b : Block) : Block :=
  Vector.ofFn fun i =>
    have : i.val % 4 + 4 * ((i.val / 4 + i.val % 4) % 4) < 16 := by omega
    b[i.val % 4 + 4 * ((i.val / 4 + i.val % 4) % 4)]

/-- Shifts row `r` by `r` places to the right. -/
def unshiftRows (b : Block) : Block :=
  Vector.ofFn fun i =>
    have : i.val % 4 + 4 * ((i.val / 4 + 4 - i.val % 4) % 4) < 16 := by omega
    b[i.val % 4 + 4 * ((i.val / 4 + 4 - i.val % 4) % 4)]

/-- Multiplies each column by a matrix whose rows are turns of the first one. -/
def mixWith (m₀ m₁ m₂ m₃ : UInt8) (b : Block) : Block :=
  Vector.ofFn fun i =>
    let start := 4 * (i.val / 4)
    have : start + i.val % 4 < 16 := by omega
    have : start + (i.val + 1) % 4 < 16 := by omega
    have : start + (i.val + 2) % 4 < 16 := by omega
    have : start + (i.val + 3) % 4 < 16 := by omega
    mul m₀ b[start + i.val % 4] ^^^ mul m₁ b[start + (i.val + 1) % 4] ^^^
      mul m₂ b[start + (i.val + 2) % 4] ^^^ mul m₃ b[start + (i.val + 3) % 4]

def mixColumns (b : Block) : Block := mixWith 2 3 1 1 b

def unmixColumns (b : Block) : Block := mixWith 14 11 13 9 b

def add (a b : Block) : Block := Vector.zipWith (· ^^^ ·) a b

/-! ## Keys of the rounds -/

/-- The next key: each word adds the word before it to its own former value, the first of
them with the last word turned, substituted and marked. -/
def nextKey (mark : UInt8) (k : Block) : Block :=
  let w₀ := k[0] ^^^ substitute k[13] ^^^ mark
  let w₁ := k[1] ^^^ substitute k[14]
  let w₂ := k[2] ^^^ substitute k[15]
  let w₃ := k[3] ^^^ substitute k[12]
  let x₀ := k[4] ^^^ w₀
  let x₁ := k[5] ^^^ w₁
  let x₂ := k[6] ^^^ w₂
  let x₃ := k[7] ^^^ w₃
  let y₀ := k[8] ^^^ x₀
  let y₁ := k[9] ^^^ x₁
  let y₂ := k[10] ^^^ x₂
  let y₃ := k[11] ^^^ x₃
  #v[w₀, w₁, w₂, w₃, x₀, x₁, x₂, x₃, y₀, y₁, y₂, y₃,
    k[12] ^^^ y₀, k[13] ^^^ y₁, k[14] ^^^ y₂, k[15] ^^^ y₃]

/-- The next `n` keys. -/
def keysFrom : (n : Nat) → (mark : UInt8) → Block → List Block
  | 0, _, _ => []
  | n + 1, mark, k =>
    let next := nextKey mark k
    next :: keysFrom n (timesX mark) next

/-- The keys of the ten rounds. -/
def roundKeys (key : Block) : List Block := keysFrom 10 1 key

/-! ## Blocks -/

/-- The rounds, of which the last does not mix. -/
def rounds : List Block → Block → Block
  | [], b => b
  | [k], b => add (shiftRows (b.map substitute)) k
  | k :: keys, b => rounds keys (add (mixColumns (shiftRows (b.map substitute))) k)

/-- The rounds undone, the last one first. -/
def unrounds : List Block → Block → Block
  | [], b => b
  | [k], b => (unshiftRows (add b k)).map restore
  | k :: keys, b => (unshiftRows (unmixColumns (add (unrounds keys b) k))).map restore

def encrypt (key b : Block) : Block := rounds (roundKeys key) (add b key)

def decrypt (key b : Block) : Block := add (unrounds (roundKeys key) b) key

end MetaTx.Aes128
