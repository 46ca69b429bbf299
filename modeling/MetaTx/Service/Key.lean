import MetaTx.Der.KeyInfo
import MetaTx.Service.Session
import MetaTx.Text.Quoted

/-!
# Keys of the key service

A key that never leaves the service is known by its id and the region it is in. The
service tells its public key, and signs digests with it. The scalars that it gives come
without a recovery id and in either half of the group order; both are mended with the
public key that is known of it.
-/

namespace MetaTx

/-- A key of the service. -/
structure ServiceKey where
  keyId : String
  region : String
  deriving DecidableEq

namespace ServiceKey

/-- The region of keys when none is configured. -/
def defaultRegion : String := "us-east-1"

/-- A key in the region that is given, or else in the configured one. -/
def ofRegion (keyId : String) (given? configured? : Option String) : ServiceKey :=
  match given? with
  | some region =>
    if region ≠ "" then ⟨keyId, region⟩ else ⟨keyId, configured?.getD defaultRegion⟩
  | none => ⟨keyId, configured?.getD defaultRegion⟩

/-- A key as logs show it. -/
def display (key : ServiceKey) : String :=
  "KmsKey(key_id=" ++ Text.quoted key.keyId ++ ", region=" ++ Text.quoted key.region ++ ")"

/-- The bytes of an entry of an answer, which is to be there. -/
def entryBytes (name : String) (entries : List (String × Value)) : Except Error Bytes :=
  match Value.get? name entries with
  | some (.bytes bs) => .ok bs
  | some _ => .error (.fault .wrongType)
  | none => .error (.fault .missingEntry)

/-- The kind of key that an answer tells, under its present or its former name. -/
def spec? (entries : List (String × Value)) : Option Value :=
  let present := (Value.get? "KeySpec" entries).filter Value.isTruthy
  let former := (Value.get? "CustomerMasterKeySpec" entries).filter Value.isTruthy
  present.or former

/-- Whether a kind of key is the expected one. -/
def isExpected : Value → Bool
  | .text spec => spec == RemoteCause.expectedSpec
  | _ => false

/-- The encoded public key. Keys of another kind are refused. -/
def fetchPublicKey (key : ServiceKey) : Run Bytes := do
  let entries ← Session.ask (.publicKey key.keyId)
  if let some spec := spec? entries then
    if !isExpected spec then throw (.remote (.keySpec key.keyId spec))
  entryBytes "PublicKey" entries

/-- The encoded signature of a digest. -/
def requestSignature (key : ServiceKey) (digest : Bytes) : Run Bytes := do
  let entries ← Session.ask (.sign key.keyId digest)
  entryBytes "Signature" entries

/-- The recovery id under which scalars recover to a public key. -/
def recoveryId? (publicKey : PublicKey) (digest : Bytes) (r s : Int) : Option Int :=
  ([0, 1] : List Int).find? fun id =>
    match Signature.recover ⟨r, s, id⟩ digest with
    | .ok recovered => recovered == publicKey
    | .error _ => false

/-- The signature that an encoded pair of scalars stands for. It is refused unless it
recovers to the public key. -/
def readSignature (publicKey : PublicKey) (digest encoded : Bytes) : Except Error Signature := do
  let (r, s) ← Der.signature encoded
  let (r, s, _) := Signature.canonicalize r s 0
  match recoveryId? publicKey digest r s with
  | some id => return ⟨r, s, id⟩
  | none => throw (.signing (.foreign publicKey.account))

/-- A low signature of a digest in the raw convention. -/
def signDigest (key : ServiceKey) (publicKey : PublicKey) (digest : Bytes) : Run Signature := do
  let encoded ← key.requestSignature digest
  readSignature publicKey digest encoded

end ServiceKey

end MetaTx
