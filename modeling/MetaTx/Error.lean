import MetaTx.Field.Refusal
import MetaTx.Service.Failure

/-!
# Errors

Every error is a cause. Causes are sorted into kinds, each kind part of a wider one, so
that callers can tell key decoding, signing and encoding failures apart or take all of
them together. A fault is a cause outside of these kinds. The wording of a cause is
given by `Error.message`. Where the wording is to tell an integer with too many digits, there
is a fault in the place of the error.
-/

namespace MetaTx

/-- The kinds of errors. -/
inductive ErrorKind
  | any
  | keyMaterial
  | length
  | digestLength
  | scalar
  | keyText
  | checksum
  | duplicateKey
  | randomSource
  | signing
  | remote
  | encoding
  | relayBuild
  deriving DecidableEq

namespace ErrorKind

/-- The next wider kind. -/
def parent? : ErrorKind → Option ErrorKind
  | any => none
  | keyMaterial | signing | encoding => some any
  | length | scalar | keyText | checksum | duplicateKey | randomSource => some keyMaterial
  | digestLength => some length
  | remote => some signing
  | relayBuild => some encoding

/-- How many kinds are wider. -/
def depth : ErrorKind → Nat
  | any => 0
  | keyMaterial | signing | encoding => 1
  | length | scalar | keyText | checksum | duplicateKey | randomSource => 2
  | remote | relayBuild => 2
  | digestLength => 3

theorem depth_parent {k j : ErrorKind} (h : k.parent? = some j) : j.depth < k.depth := by
  cases k <;> simp [parent?] at h <;> subst h <;> decide

/-- A kind and all wider ones, the widest last. -/
def lineage (k : ErrorKind) : List ErrorKind :=
  match h : k.parent? with
  | none => [k]
  | some j =>
    have := depth_parent h
    k :: j.lineage
termination_by k.depth

end ErrorKind

/-- What has a fixed number of bytes. -/
inductive Sized
  | privateKey
  | publicKey
  | signature
  deriving DecidableEq

namespace Sized

def name : Sized → String
  | privateKey => "private key"
  | publicKey => "public key"
  | signature => "signature"

/-- The number of bytes; of a public key, that of its long form. -/
def width : Sized → Nat
  | privateKey => 32
  | publicKey => 65
  | signature => 65

end Sized

/-- Why a text or byte string stands for no key, address or secret. -/
inductive KeyTextCause
  | hex (position : Nat)
  | base58
  | base58Short
  | bech32
  | longKeyMark
  | publicKey
  | keyFile
  | secret
  | noMasterKey

def KeyTextCause.message : KeyTextCause → String
  | hex position => Field.Rule.message (.hex position)
  | base58 => "invalid base58 string"
  | base58Short => "base58 payload shorter than checksum"
  | bech32 => "invalid bech32 address"
  | longKeyMark => "uncompressed public key must start with 0x04"
  | publicKey => "invalid public key"
  | keyFile => "key text is not valid UTF-8"
  | secret => "cannot decrypt secret: wrong master key or corrupted data"
  | noMasterKey => "secret is encrypted but MASTER_KEY is not set"

/-- Why no key is configured. -/
inductive KeyChoiceCause
  | emptyFile (path : String)
  | noLocalKey
  | noRemoteKey

def KeyChoiceCause.message : KeyChoiceCause → String
  | emptyFile path => "no keys found in " ++ path
  | noLocalKey => "local signer needs PRIVATE_KEY or KEY_FILE"
  | noRemoteKey => "kms signer needs AWS_KMS_KEY_ID"

/-- Why a random source gave no key. -/
inductive RandomCause
  | failed (reason : String)
  | wrongLength (actual : Nat)
  | exhausted

def RandomCause.message : RandomCause → String
  | failed reason => "random source failed: " ++ reason
  | wrongLength actual => s!"random source returned {actual} bytes, expected 32"
  | exhausted => "random source kept producing invalid scalars"

/-- The two shapes of a transaction. -/
inductive TransactionShape
  | legacy
  | dynamicFee
  deriving DecidableEq

def TransactionShape.name : TransactionShape → String
  | legacy => "legacy"
  | dynamicFee => "dynamic fee"

/-- Why nothing was signed, or no key recovered. -/
inductive SigningCause
  | curve
  /-- A `v` beyond one byte. -/
  | wideV (v : Int)
  | folded (chainId : Int)
  | recovery
  | noChainId (shape : TransactionShape)
  | otherChain
  | signatureDer
  | publicKeyDer
  | otherCurve
  /-- A signature of the key service that is not by the key of this address. -/
  | foreign (address : String)

def SigningCause.message : SigningCause → String
  | curve => "failed to sign digest"
  | wideV v => s!"v={v} does not fit the 65-byte signature layout"
  | folded chainId => s!"signature already carries chain id {chainId}"
  | recovery => "public key recovery failed"
  | noChainId shape => shape.name ++ " transaction needs a chain id to be signed"
  | otherChain => "legacy transaction needs a signature folded with its chain id"
  | signatureDer => "malformed DER signature from KMS"
  | publicKeyDer => "malformed DER public key from KMS"
  | otherCurve => "KMS key is not a secp256k1 key"
  | foreign address => "KMS signature does not recover to " ++ address

/-- Why the key service is of no use. -/
inductive RemoteCause
  | service (operation : Service.Operation) (failure : Service.Failure)
  | keySpec (keyId : String) (spec : Value)

namespace RemoteCause

/-- The one kind of key that the service is to hold. -/
def expectedSpec : String := "ECC_SECG_P256K1"

def message : RemoteCause → String
  | service operation failure => failure.message operation
  | keySpec keyId spec => s!"KMS key {keyId} has spec {spec.display}, expected {expectedSpec}"

def isRetryable : RemoteCause → Bool
  | service _ failure => failure.isRetryable
  | keySpec .. => false

def code? : RemoteCause → Option Value
  | service _ failure => some failure.code
  | keySpec .. => none

end RemoteCause

/-- Why something has no encoded form. -/
inductive EncodingCause
  | typedData
  | rlp
  | address
  | suffixView
  | forwarderV (v : Int)
  | call

def EncodingCause.message : EncodingCause → String
  | typedData => "failed to encode EIP-712 typed data"
  | rlp => "RLP encoding failed"
  | address => "invalid address"
  | suffixView => "typed-data view is not available for requests with suffix data"
  | forwarderV v => s!"forwarder signatures need v of 27 or 28, got {v}"
  | call => "failed to encode execute call"

/-- Causes outside of the kinds of errors. -/
inductive Fault
  /-- A public key whose coordinates belong to no point of the curve. -/
  | offCurve
  /-- A digest to verify that is not 32 bytes. -/
  | digestWidth
  | negativeV
  /-- A scalar of a signature that does not fit 32 bytes. -/
  | wideScalar
  /-- A signature that the curve does not know. -/
  | noSignature
  | bech32Checksum
  /-- A private key is never written out behind the caller's back. -/
  | keptSecret
  | wrongType
  /-- A text was needed. -/
  | notText
  /-- Data that is a number below zero. -/
  | negativeData
  /-- Something with entries was needed. -/
  | noEntries
  | missingEntry
  | abiType
  | abiRange
  | malformedAddress
  /-- An integer with too many digits to be written in a message or a line of the log. -/
  | longInteger
  /-- Domain or primary type do not go with the types of a message. -/
  | typeMismatch
  | cipherKey
  | plaintext
  | noFile
  /-- A path that leads to a directory. -/
  | notFile
  /-- A path that goes on behind a file. -/
  | throughFile
  | longPath
  /-- A path with a character that ends it too early. -/
  | zeroInPath
  /-- A public key of an algorithm or curve that is not known. -/
  | unknownKey
  /-- The key service has no more answers. -/
  | noAnswer
  | unknownBackend (given : String)
  | refusedFields (refusals : List Field.Refusal)

def Fault.message : Fault → String
  | offCurve => "the coordinates belong to no point of the curve"
  | digestWidth => "a digest to verify must be 32 bytes"
  | negativeV => "v is negative"
  | wideScalar => "a scalar does not fit 32 bytes"
  | noSignature => "the curve knows no such signature"
  | bech32Checksum => "the checksum of a bech32 address is wrong"
  | keptSecret => "a private key is not written out"
  | wrongType => "a value has the wrong type"
  | notText => "a value is no text"
  | negativeData => "data is a number below zero"
  | noEntries => "a value has no entries"
  | missingEntry => "an entry is missing"
  | abiType => "a value does not go with its type"
  | abiRange => "a value does not fit its type"
  | malformedAddress => "a value is no address"
  | longInteger => Field.unwritable
  | typeMismatch => "the domain or the primary type does not go with the types"
  | cipherKey => "a master key must be 32 bytes"
  | plaintext => "a secret is not valid UTF-8"
  | noFile => "there is no such file"
  | notFile => "a path leads to a directory"
  | throughFile => "a path leads through a file"
  | longPath => "a path or a name in it is too long"
  | zeroInPath => "a path has a zero character"
  | unknownKey => "a public key has an unknown algorithm or curve"
  | noAnswer => "the key service gives no answer"
  | unknownBackend given => "Unknown SIGNER_BACKEND: " ++ given
  | refusedFields _ => "fields are refused"

/-- An error, as its cause. -/
inductive Error
  | length (of : Sized) (actual : Nat)
  | digestLength (actual : Nat)
  | scalar
  | keyText (cause : KeyTextCause)
  | checksum
  | duplicateKey (line : Nat)
  | randomSource (cause : RandomCause)
  | keyChoice (cause : KeyChoiceCause)
  | signing (cause : SigningCause)
  | remote (cause : RemoteCause)
  | encoding (cause : EncodingCause)
  | relayBuild (refusals : List Field.Refusal)
  | fault (fault : Fault)

namespace Error

/-- The narrowest kind of an error; a fault has none. -/
def kind? : Error → Option ErrorKind
  | length .. => some .length
  | digestLength _ => some .digestLength
  | scalar => some .scalar
  | keyText _ => some .keyText
  | checksum => some .checksum
  | duplicateKey _ => some .duplicateKey
  | randomSource _ => some .randomSource
  | keyChoice _ => some .keyMaterial
  | signing _ => some .signing
  | remote _ => some .remote
  | encoding _ => some .encoding
  | relayBuild _ => some .relayBuild
  | fault _ => none

/-- How many bytes a digest has. -/
def digestWidth : Nat := 32

/-- The lengths that an error of a length tells: the expected and the actual one. -/
def lengths? : Error → Option (Nat × Nat)
  | length of actual => some (of.width, actual)
  | digestLength actual => some (digestWidth, actual)
  | _ => none

/-- The wording of an error. -/
def message : Error → String
  | length of actual => s!"{of.name} must be {of.width} bytes, got {actual}"
  | digestLength actual => s!"digest must be {digestWidth} bytes, got {actual}"
  | scalar => "private key scalar must be in [1, n)"
  | keyText cause => cause.message
  | checksum => "checksum mismatch in checksummed encoding"
  | duplicateKey line => s!"key at line {line} already added before"
  | randomSource cause => cause.message
  | keyChoice cause => cause.message
  | signing cause => cause.message
  | remote cause => cause.message
  | encoding cause => cause.message
  | relayBuild _ => "invalid relay request"
  | fault cause => cause.message

/-- Whether an error is caught by those who wait for a kind. -/
def isA (e : Error) (kind : ErrorKind) : Bool :=
  match e.kind? with
  | some k => k.lineage.contains kind
  | none => false

/-- An error whose wording tells a value, or the fault that the value cannot be written. -/
def telling (v : Value) (e : Error) : Error := if v.isWritable then e else .fault .longInteger

end Error

/-- Tells a value in a line of the log. The line itself is not kept. -/
def Value.log (v : Value) : Except Error Unit :=
  if v.isWritable then .ok () else .error (.fault .longInteger)

end MetaTx
