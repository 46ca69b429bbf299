import MetaTx.Relay.Tx
import MetaTx.Service.Session

/-!
# Building relay transactions

A builder records values of any kind, the last one for each field. They are checked when
the relay transaction is built, all at once, and the builder can be used again after that,
also if it failed. Once a builder is told that there is no expiry this stays so.
-/

namespace MetaTx

namespace Relay

/-- The fields that a builder records. -/
inductive Slot
  | domainName
  | domainVersion
  | domainChainId
  | domainContract
  | sender
  | recipient
  | value
  | gas
  | nonce
  | data
  | validUntil
  | typeName
  | typeSuffix
  deriving DecidableEq

/-- Whether a field belongs to the domain. -/
def Slot.isDomain : Slot → Bool
  | domainName | domainVersion | domainChainId | domainContract => true
  | _ => false

/-- The name under which the field is read. -/
def Slot.key : Slot → String
  | domainName => "name"
  | domainVersion => "version"
  | domainChainId => "chain_id"
  | domainContract => "verifying_contract"
  | sender => "from_"
  | recipient => "to"
  | value => "value"
  | gas => "gas"
  | nonce => "nonce"
  | data => "data"
  | validUntil => "valid_until_time"
  | typeName => "type_name"
  | typeSuffix => "type_suffix_data"

end Relay

/-- What was recorded for the domain and for the request. -/
structure RelayBuilder where
  domain : List (String × Value) := []
  request : List (String × Value) := []

namespace RelayBuilder

open Relay

/-- Records a value for a field. -/
def set (b : RelayBuilder) (slot : Slot) (v : Value) : RelayBuilder :=
  if slot.isDomain then { b with domain := putEntry slot.key v b.domain }
  else { b with request := putEntry slot.key v b.request }

/-- Records that there is no expiry. -/
def endless (b : RelayBuilder) : RelayBuilder :=
  { b with request := putEntry "no_expiry" (.bool true) b.request }

/-- Records that there is no expiry, and leaves a notice: a signature that leaks is then
good until the nonce moves on. -/
def noExpiry (b : RelayBuilder) : Run RelayBuilder := do
  Session.notify .warning "Relay request built with no expiry"
  return b.endless

/-- Checks what is recorded. -/
def build (b : RelayBuilder) : Except Error RelayTx :=
  (RelayTx.check b.domain b.request).mapError .relayBuild

end RelayBuilder

end MetaTx
