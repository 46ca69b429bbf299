import MetaTx.Bytes.Base64Url
import MetaTx.Cipher.Chain
import MetaTx.Error
import MetaTx.Hash.Hmac

/-!
# Secrets at rest

A secret text can be kept as a token, under a master key of 32 bytes: half of it tags
tokens, the other half encrypts. A token is a version byte, the time it was made, a random
starting block, the encrypted secret and the tag of all that, in base 64. Tokens do not
age. Texts that do not look like tokens are taken for secrets in clear.
-/

namespace MetaTx

/-- A key in two halves: one tags what the other encrypts. -/
structure MasterKey where
  tagging : Bytes
  encrypting : Bytes

namespace MasterKey

/-- The number of bytes. -/
def width : Nat := 32

/-- Reads a master key in base 64. -/
def ofText (s : String) : Except Error MasterKey :=
  match Base64Url.decode? s.toList with
  | some raw =>
    if raw.length = width then .ok ⟨raw.take 16, raw.drop 16⟩ else .error (.fault .cipherKey)
  | none => .error (.fault .cipherKey)

/-- The text of a master key of random bytes. -/
def text (random : Bytes) : String := String.ofList (Base64Url.encode random)

/-- How often the tag is repeated for a password. -/
def iterations : Nat := 100000

/-- The text of the master key that a password stands for. -/
def ofPassword (password : String) (salt : Bytes) : String :=
  text (HmacKey.stretch (Bytes.ofText password) salt iterations)

end MasterKey

/-- What a token is made with besides the secret and the key. -/
structure TokenSeed where
  time : Nat
  start : Bytes

namespace Secret

/-- The version byte of tokens. -/
def version : UInt8 := 0x80

/-- The number of bytes of a tag. -/
def tagWidth : Nat := 32

/-- What tokens start with. -/
def tokenMark : String := "gAAAAA"

def isEncrypted (s : String) : Bool := tokenMark.toList.isPrefixOf s.toList

/-- The token of a secret. -/
def wrap (key : MasterKey) (seed : TokenSeed) (secret : String) : String :=
  let cipher := Cipher.encrypt key.encrypting seed.start (Bytes.ofText secret)
  let body := version :: Bytes.ofNat 8 seed.time ++ seed.start ++ cipher
  String.ofList (Base64Url.encode (body ++ hmac key.tagging body))

/-- The bytes that the body of a token encrypts. -/
def openBody? (key : MasterKey) (body : Bytes) : Option Bytes :=
  Cipher.decrypt? key.encrypting ((body.drop 9).take 16) (body.drop 25)

/-- The bytes that a token encrypts. -/
def openBytes? (key : MasterKey) (token : String) : Option Bytes := do
  let raw ← Base64Url.decode? token.toList
  let body := raw.take (raw.length - tagWidth)
  if raw.head? = some version ∧ 9 ≤ raw.length ∧
      hmac key.tagging body = raw.drop (raw.length - tagWidth) then
    openBody? key body
  else none

/-- The secret of a token. -/
def unwrap (key : MasterKey) (token : String) : Except Error String :=
  match openBytes? key token with
  | none => .error (.keyText .secret)
  | some raw =>
    match Bytes.toText? raw with
    | some secret => .ok secret
    | none => .error (.fault .plaintext)

/-- The token of a secret under the text of a master key. -/
def encrypt (masterKey : String) (seed : TokenSeed) (secret : String) : Except Error String := do
  return wrap (← MasterKey.ofText masterKey) seed secret

/-- The secret of a token under the text of a master key. -/
def decryptToken (masterKey token : String) : Except Error String := do
  unwrap (← MasterKey.ofText masterKey) token

/-- The token of the same secret under another master key. -/
def rotate (masterKey newKey : String) (seed : TokenSeed) (token : String) :
    Except Error String := do
  let key ← MasterKey.ofText masterKey
  let next ← MasterKey.ofText newKey
  return wrap next seed (← unwrap key token)

/-- The secret that a text stands for, which is the text itself unless it is a token. -/
def reveal (masterKey? : Option String) (s : String) : Except Error String :=
  if isEncrypted s then
    match masterKey? with
    | some masterKey =>
      if masterKey = "" then .error (.keyText .noMasterKey) else decryptToken masterKey s
    | none => .error (.keyText .noMasterKey)
  else .ok s

end Secret

end MetaTx
