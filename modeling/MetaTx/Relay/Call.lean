import MetaTx.Key.Signature
import MetaTx.Relay.Tx
import MetaTx.Signer

/-!
# Signed relay transactions

With the signature of its sender, a relay transaction becomes a call of the forwarder
contract, or a payload for a relay server.
-/

namespace MetaTx

/-- A relay transaction with the signature of its sender. -/
structure SignedRelayTx where
  tx : RelayTx
  signature : Signature

/-- What the forwarder contract is called with. -/
structure ExecuteCall where
  contract : String
  data : Bytes

def ExecuteCall.dataHex (call : ExecuteCall) : String := Hex.render call.data

namespace Relay

/-- The function of the contract. -/
def executeText : String :=
  "execute((address,address,uint256,uint256,uint256,bytes,uint256),bytes32,bytes32,bytes,bytes)"

/-- The four bytes that stand for the function. -/
def executeSelector : Bytes := (keccakText executeText).take 4

/-- The layout of a request in the call. -/
def requestAbi : AbiType :=
  .tuple [.address, .address, .uint 256, .uint 256, .uint 256, .bytes, .uint 256]

/-- The layout of the arguments of the call. -/
def executeAbi : List AbiType := [requestAbi, .word 32, .word 32, .bytes, .bytes]

/-- Arguments that the layout refuses. -/
def ofCallFault : Error → Error
  | .fault .abiType | .fault .abiRange => .encoding .call
  | e => e

end Relay

/-- Signs a relay transaction, with a notice if the signer is not its sender. -/
def RelayTx.sign (tx : RelayTx) (signer : Signer) : Run SignedRelayTx := do
  let account := signer.account
  if account ≠ tx.request.sender then
    Session.notify .warning
      s!"Relay request from {tx.request.sender} signed by {account}; the forwarder will reject it"
  let signature ← signer.signStructured tx.digest
  return ⟨tx, signature⟩

namespace SignedRelayTx

open Relay

/-- The arguments of the call: the request, the hashes of its domain and type, its suffix,
and the signature. -/
def arguments (signed : SignedRelayTx) : Except Error (List Value) := do
  let tx := signed.tx
  let domain ← tx.domainSeparator
  let signature ← signed.signature.toBytes
  return [.list tx.request.asTuple, .bytes domain, .bytes tx.requestTypeHash,
    .bytes tx.request.suffixBytes, .bytes signature]

/-- Whether a forwarder takes a signature of this convention. -/
def isForwarderV (v : Int) : Bool :=
  v == Signature.messageBase || v == Signature.messageBase + 1

/-- The call of the forwarder contract. -/
def call (signed : SignedRelayTx) : Except Error ExecuteCall := do
  let v := signed.signature.v
  if !isForwarderV v then throw ((Error.encoding (.forwarderV v)).telling (.int v))
  let encoded := do
    let arguments ← signed.arguments
    (Abi.encode executeAbi arguments).mapError .fault
  let arguments ← encoded.mapError ofCallFault
  return ⟨signed.tx.forwarder, executeSelector ++ arguments⟩

/-- The payload for a relay server, in this order. -/
def payload (signed : SignedRelayTx) : Except Error (List (String × Value)) := do
  let tx := signed.tx
  let domain ← tx.domainSeparator
  let signature ← signed.signature.toBytes
  return [
    ("forwarder", .text tx.forwarder), ("domain", .map tx.domain.view),
    ("domainSeparator", .text (Hex.render domain)),
    ("requestType", .text tx.requestType),
    ("requestTypeHash", .text (Hex.render tx.requestTypeHash)),
    ("request", .map tx.request.view),
    ("suffixData", .text (Hex.render tx.request.suffixBytes)),
    ("signature", .text (Hex.render signature))]

end SignedRelayTx

end MetaTx
