import MetaTx.Abi
import MetaTx.Message
import MetaTx.Value.Literal

/-!
# Hashes of a forward request

A forwarder contract registers domains and types of requests. A type has a name, the
fields that every request has, and perhaps a suffix with more fields, which closes the
parenthesis itself. The suffix is also appended as it is to the encoded fields before
they are hashed, as the contract does.
-/

namespace MetaTx.Relay

/-- The type of domains. -/
def domainType : String :=
  "EIP712Domain(string name,string version,uint256 chainId,address verifyingContract)"

/-- The fields that every request has. -/
def requestFields : String :=
  "address from,address to,uint256 value,uint256 gas,uint256 nonce,bytes data," ++
    "uint256 validUntilTime"

/-- The text of the type of a request. -/
def requestType (name suffix : String) : String :=
  if suffix = "" then name ++ "(" ++ requestFields ++ ")"
  else name ++ "(" ++ requestFields ++ "," ++ suffix

def requestTypeHash (name suffix : String) : Bytes := keccakText (requestType name suffix)

/-- The text of the type of a request whose name and suffix are of any kind. -/
def requestTypeOf (name suffix : Value) : Except Fault String :=
  if name.isWritable ∧ suffix.isWritable then
    .ok (requestType name.display (if suffix.isTruthy then suffix.display else ""))
  else .error .longInteger

/-- The hash of a value that is to be a text. -/
def textHash : Value → Except Fault Bytes
  | .text s => .ok (keccakText s)
  | .null => .error .wrongType
  | _ => .error .notText

/-- The bytes of a value that is to be a byte string. -/
def bytesOf : Value → Except Fault Bytes
  | .bytes bs => .ok bs
  | _ => .error .wrongType

/-- The layout of a domain. -/
def encodeDomain (name version chainId contract : Value) : Except Fault Bytes := do
  let name ← textHash name
  let version ← textHash version
  let contract ← Address.ofValue contract
  Abi.encode [.word 32, .word 32, .word 32, .uint 256, .address]
    [.bytes (keccakText domainType), .bytes name, .bytes version, chainId, .bytes contract]

/-- The hash of a domain. -/
def domainSeparator (name version chainId contract : Value) : Except Fault Bytes := do
  return keccak (← encodeDomain name version chainId contract)

/-- What a request holds besides its type. -/
structure RequestFields where
  sender : Value
  recipient : Value
  value : Value
  gas : Value
  nonce : Value
  data : Value
  validUntil : Value

/-- The layout of a request under the hash of its type. -/
def encodeRequest (typeHash : Value) (r : RequestFields) : Except Fault Bytes := do
  let sender ← Address.ofValue r.sender
  let recipient ← Address.ofValue r.recipient
  let data ← keccak <$> Message.rawBytes r.data
  Abi.encode [.word 32, .address, .address, .uint 256, .uint 256, .uint 256, .word 32, .uint 256]
    [typeHash, .bytes sender, .bytes recipient, r.value, r.gas, r.nonce, .bytes data, r.validUntil]

/-- The hash of a request, with its suffix appended. -/
def hashRequest (typeHash : Value) (r : RequestFields) (suffix : Value) :
    Except Fault Bytes := do
  let encoded ← encodeRequest typeHash r
  return keccak (encoded ++ (← bytesOf suffix))

/-- The digest of a request, by the hash of its domain and its own. -/
def digestOf (domainSeparator requestHash : Value) : Except Fault Bytes := do
  return Message.structuredDigest (← bytesOf domainSeparator) (← bytesOf requestHash)

end MetaTx.Relay
