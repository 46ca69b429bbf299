import MetaTx.Hash.Sha256

/-!
# Keyed hashing with SHA-256

A key is kept as the two states that have absorbed it, so that many messages can
be tagged under it. Passwords are stretched by repeating the tag.
-/

namespace MetaTx

/-- A key of the keyed hash, absorbed once in front of the message and once in front of
the inner hash. -/
structure HmacKey where
  inner : Sha256.State
  outer : Sha256.State

namespace HmacKey

/-- A key in one block: a longer one is replaced by its hash. -/
def block (key : Bytes) : Bytes :=
  Bytes.padRight 64 (if 64 < key.length then Sha256.hash key else key)

def ofBytes (key : Bytes) : HmacKey where
  inner := Sha256.compress Sha256.initial ((block key).map (· ^^^ 0x36))
  outer := Sha256.compress Sha256.initial ((block key).map (· ^^^ 0x5c))

/-- The 32-byte tag of a message. -/
def tag (key : HmacKey) (message : Bytes) : Bytes :=
  Sha256.finish key.outer 64 (Sha256.finish key.inner 64 message)

@[simp] theorem length_tag (key : HmacKey) (message : Bytes) :
    (key.tag message).length = 32 := by
  simp [tag, Sha256.finish]

/-- Tags `n` more times, each time the last tag, and combines all tags. -/
def stretchFrom (key : HmacKey) : (n : Nat) → (last acc : Bytes) → Bytes
  | 0, _, acc => acc
  | n + 1, last, acc =>
    let next := key.tag last
    stretchFrom key n next (Bytes.xor acc next)

/-- A 32-byte key from a password: one block of PBKDF2. -/
def stretch (password salt : Bytes) (iterations : Nat) : Bytes :=
  let key := ofBytes password
  let first := key.tag (salt ++ [0, 0, 0, 1])
  stretchFrom key (iterations - 1) first first

end HmacKey

/-- The 32-byte tag of a message under a key. -/
def hmac (key message : Bytes) : Bytes := (HmacKey.ofBytes key).tag message

@[simp] theorem length_hmac (key message : Bytes) : (hmac key message).length = 32 := by
  simp [hmac]

end MetaTx
