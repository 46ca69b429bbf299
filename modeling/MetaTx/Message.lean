import MetaTx.Error
import MetaTx.Hash.Keccak

/-!
# What is hashed for signing

Besides transactions, accounts sign personal messages (EIP-191) and structured requests
(EIP-712). Both start with the byte `0x19`, which starts no transaction. A personal
message goes with its length in decimal digits, a request is two hashes: of the domain it
is meant for, and of its content.
-/

namespace MetaTx.Message

/-- The bytes of a value that is hashed as it is: a byte string, or a number, which is never
empty. -/
def rawBytes : Value → Except Fault Bytes
  | .bytes bs => .ok bs
  | .bool b => .ok [if b then 1 else 0]
  | .int n => if n < 0 then .error .negativeData else .ok (Bytes.ofNumber n.toNat)
  | .null | .float _ | .text _ | .list _ | .map _ => .error .wrongType

/-- The bytes of a personal message; a text stands for its UTF-8 bytes. -/
def content : Value → Except Fault Bytes
  | .text s => .ok (Bytes.ofText s)
  | v => rawBytes v

/-- What stands in front of the length of a personal message. -/
def personalHeader : Bytes := 0x19 :: Bytes.ofText "Ethereum Signed Message:\n"

/-- The bytes that are hashed for a personal message. -/
def personal (message : Bytes) : Bytes :=
  personalHeader ++ Bytes.ofText (toString message.length) ++ message

/-- The bytes that are hashed for a structured request. -/
def structured (domain content : Bytes) : Bytes := [0x19, 0x01] ++ domain ++ content

/-- The digest of a personal message. -/
def personalDigest (message : Bytes) : Bytes := keccak (personal message)

/-- The digest of a structured request. -/
def structuredDigest (domain content : Bytes) : Bytes := keccak (structured domain content)

end MetaTx.Message
