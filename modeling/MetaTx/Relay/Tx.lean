import MetaTx.Relay.Hashing
import MetaTx.Relay.Request
import MetaTx.Value.Literal

/-!
# Relay transactions

A domain with a request, ready to be signed by its sender. Its digest is built from the
hash of the domain and that of the request. A wallet that signs by itself is given the
same content as typed data, unless the request has a suffix, which typed data cannot
express. The texts in both parts are made of characters, so they can always be hashed as
UTF-8.
-/

namespace MetaTx

/-- A checked domain and a checked request. -/
structure RelayTx where
  domain : Relay.Domain
  request : Relay.Request
  deriving DecidableEq

namespace Relay

/-- Puts an entry into a mapping, in the place of an earlier one under its key. -/
def putEntry (key : String) (v : Value) : List (String × Value) → List (String × Value)
  | [] => [(key, v)]
  | (k, w) :: rest => if k = key then (key, v) :: rest else (k, w) :: putEntry key v rest

/-- A domain as typed data shows it. -/
def Domain.view (d : Domain) : List (String × Value) := [
  ("name", .text d.name), ("version", .text d.version), ("chainId", .int d.chainId),
  ("verifyingContract", .text d.contract)]

/-- A request as relay servers are shown it, with its numbers in decimal digits. -/
def Request.view (r : Request) : List (String × Value) := [
  ("from", .text r.sender), ("to", .text r.recipient), ("value", .text (toString r.value)),
  ("gas", .text (toString r.gas)), ("nonce", .text (toString r.nonce)),
  ("data", .text (Hex.render r.data)), ("validUntilTime", .text (toString r.expiry))]

/-- A request in the order in which the contract takes it. -/
def Request.asTuple (r : Request) : List Value := [
  .text r.sender, .text r.recipient, .int r.value, .int r.gas, .int r.nonce, .bytes r.data,
  .int r.expiry]

/-- What a request holds besides its type. -/
def Request.fields (r : Request) : RequestFields where
  sender := .text r.sender
  recipient := .text r.recipient
  value := .int r.value
  gas := .int r.gas
  nonce := .int r.nonce
  data := .bytes r.data
  validUntil := .int r.expiry

/-- The definition of a type by the names and types of its members. -/
def definition (members : List (String × String)) : Value :=
  .list (members.map fun (name, type) => .map [("name", .text name), ("type", .text type)])

/-- The members of the type of domains. -/
def domainMembers : List (String × String) := [
  ("name", "string"), ("version", "string"), ("chainId", "uint256"),
  ("verifyingContract", "address")]

/-- The members of every type of requests. -/
def requestMembers : List (String × String) := [
  ("from", "address"), ("to", "address"), ("value", "uint256"), ("gas", "uint256"),
  ("nonce", "uint256"), ("data", "bytes"), ("validUntilTime", "uint256")]

/-- A request as a message of typed data. -/
def Request.message (r : Request) : List (String × Value) := [
  ("from", .text r.sender), ("to", .text r.recipient), ("value", .int r.value), ("gas", .int r.gas),
  ("nonce", .int r.nonce), ("data", .text (Hex.render r.data)),
  ("validUntilTime", .int r.expiry)]

end Relay

namespace RelayTx

open Relay

/-- The contract that is to carry out the request. -/
def forwarder (tx : RelayTx) : String := tx.domain.contract

/-! ## Hashes -/

/-- The hash of the domain. -/
def domainSeparator (tx : RelayTx) : Except Error Bytes :=
  let d := tx.domain
  (Relay.domainSeparator (.text d.name) (.text d.version) (.int d.chainId)
    (.text d.contract)).mapError .fault

/-- The text of the type of the request. -/
def requestType (tx : RelayTx) : String :=
  Relay.requestType tx.request.typeName tx.request.typeSuffix

def requestTypeHash (tx : RelayTx) : Bytes :=
  Relay.requestTypeHash tx.request.typeName tx.request.typeSuffix

/-- The hash of the request. -/
def structHash (tx : RelayTx) : Except Error Bytes :=
  let suffix := Value.bytes tx.request.suffixBytes
  (hashRequest (.bytes tx.requestTypeHash) tx.request.fields suffix).mapError .fault

/-- The digest that the sender signs. -/
def digest (tx : RelayTx) : Except Error Bytes := do
  let domain ← tx.domainSeparator
  let content ← tx.structHash
  return Message.structuredDigest domain content

/-! ## Typed data -/

/-- The same content as a payload of typed data. -/
def typedData (tx : RelayTx) : Except Error (List (String × Value)) :=
  let r := tx.request
  if r.typeSuffix ≠ "" then .error (.encoding .suffixView)
  else
    let types := putEntry r.typeName (definition requestMembers)
      [("EIP712Domain", definition domainMembers)]
    .ok [("types", .map types), ("primaryType", .text r.typeName),
      ("domain", .map tx.domain.view), ("message", .map r.message)]

/-! ## Building -/

/-- A relay transaction from the entries of both of its parts. The request is looked at
only if the domain is accepted. -/
def check (domain request : List (String × Value)) : Except (List Field.Refusal) RelayTx := do
  let domain ← (Domain.check domain).toExcept
  let request ← (Request.check request).toExcept
  return ⟨domain, request⟩

/-- What happens if a field of a part is assigned: the parts do not change. A name that starts
with an underscore is a private note beside the fields, which may be assigned. -/
def assign (tx : RelayTx) (field : String) : Except Error RelayTx :=
  if field.toList.head? = some '_' then .ok tx
  else .error (.fault (.refusedFields [⟨some field, .fixed⟩]))

end RelayTx

end MetaTx
