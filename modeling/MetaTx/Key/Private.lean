import MetaTx.Key.Public

/-!
# Private keys

A private key is a scalar between zero and the group order. It is written as 32 bytes,
as their digits, or in checked base 58 behind a mark of its own. What logs show of it is
the account address only.
-/

namespace MetaTx

/-- A secret scalar below the order of the group, and not zero. -/
structure PrivateKey where
  scalar : Nat
  pos : 0 < scalar
  lt_order : scalar < Secp256k1.n
  deriving DecidableEq

namespace PrivateKey

/-- The number of bytes. -/
def width : Nat := Sized.privateKey.width

/-! ## Encodings -/

/-- The key of a scalar that is in range. -/
def ofScalar? (n : Nat) : Option PrivateKey :=
  if h : 0 < n ∧ n < Secp256k1.n then some ⟨n, h.1, h.2⟩ else none

def ofBytes (raw : Bytes) : Except Error PrivateKey :=
  if raw.length = width then
    match ofScalar? (Bytes.toNat raw) with
    | some key => .ok key
    | none => .error .scalar
  else .error (.length .privateKey raw.length)

def toBytes (key : PrivateKey) : Bytes := Bytes.ofNat width key.scalar

/-- Reads digits with or without a mark in front. -/
def ofHex (s : String) : Except Error PrivateKey :=
  match Hex.decode (Hex.dropMark s).toList with
  | .ok raw => ofBytes raw
  | .error position => .error (.keyText (.hex position))

def toHex (key : PrivateKey) : String := Hex.render key.toBytes

/-- The mark in front of the checked form. -/
def checkedMark : String := "PrivateKey-"

/-- A text without the mark of the checked form. -/
def dropCheckedMark (s : String) : String :=
  if checkedMark.toList.isPrefixOf s.toList then
    String.ofList (s.toList.drop checkedMark.length)
  else s

/-- What the refusal of a checked text means for a key. -/
def ofBase58Refusal : Base58.Refusal → Error
  | .malformed => .keyText .base58
  | .tooShort => .keyText .base58Short
  | .mismatch => .checksum

/-- Reads the checked form, with or without its mark. -/
def ofChecked (s : String) : Except Error PrivateKey := do
  let raw ← (Base58.decodeChecked (dropCheckedMark s)).mapError ofBase58Refusal
  ofBytes raw

def toChecked (key : PrivateKey) : String := checkedMark ++ Base58.encodeChecked key.toBytes

/-- Reads the checked form if its mark is there, else digits. Blanks around are ignored. -/
def ofText (s : String) : Except Error PrivateKey :=
  let cs := Text.trim Text.isBlank s.toList
  if checkedMark.toList.isPrefixOf cs then ofChecked (String.ofList cs)
  else ofHex (String.ofList cs)

/-! ## Random keys -/

/-- What a random source gives when asked for bytes. -/
inductive Draw
  | bytes (raw : Bytes)
  | failed (reason : String)

/-- How many draws are made. One alone fails with a chance of about `2 ^ -128`. -/
def maxDraws : Nat := 8

/-- What a draw decides: a key, an error, or nothing if its scalar is out of range. -/
def ofDraw : Draw → Option (Except Error PrivateKey)
  | .failed reason => some (.error (.randomSource (.failed reason)))
  | .bytes raw =>
    if raw.length = width then (ofScalar? (Bytes.toNat raw)).map .ok
    else some (.error (.randomSource (.wrongLength raw.length)))

/-- Makes at most `left` draws, the first of them number `i` of the source. The result
comes with the number of the draw after the last. -/
def generateFrom (source : Nat → Draw) : (left i : Nat) → Except Error PrivateKey × Nat
  | 0, i => (.error (.randomSource .exhausted), i)
  | left + 1, i =>
    match ofDraw (source i) with
    | some outcome => (outcome, i + 1)
    | none => generateFrom source left (i + 1)

/-- A key from a random source, and how many draws it took. -/
def generate (source : Nat → Draw) : Except Error PrivateKey × Nat :=
  generateFrom source maxDraws 0

/-! ## Use -/

/-- The public key: the multiple of the generator. -/
def toPublic (key : PrivateKey) : PublicKey :=
  .ofPoint (Secp256k1.Point.mul key.scalar Secp256k1.g)

/-- The checksummed text of the account address. -/
def account (key : PrivateKey) : String := key.toPublic.account

/-- A low signature of a digest in the raw convention. -/
def signDigest (key : PrivateKey) (digest : Bytes) : Except Error Signature :=
  if digest.length = Error.digestWidth then
    match Ecdsa.sign? key.scalar digest with
    | some pair => Signature.ofNative pair.r pair.s pair.id
    | none => .error (.signing .curve)
  else .error (.digestLength digest.length)

/-- A key as logs show it. -/
def display (key : PrivateKey) : String := s!"PrivateKey(address={key.account})"

/-- The serialized form that others may ask for behind the caller's back: there is none. -/
def serialize (_ : PrivateKey) : Except Error Bytes := .error (.fault .keptSecret)

end PrivateKey

end MetaTx
