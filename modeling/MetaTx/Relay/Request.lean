import MetaTx.Address
import MetaTx.Field.Reader

/-!
# Forward requests

A sender signs a request that a forwarder contract is to carry out, and the domain that
the contract has registered. Both are read from entries of any kind, and hold checked
values only: checksummed addresses, numbers of 256 bits, and either an expiry or the
statement that there is none. On chain, no expiry is the largest number.
-/

namespace MetaTx.Relay

/-- The domain that a forwarder contract has registered. -/
structure Domain where
  name : String
  version : String
  chainId : Int
  contract : String
  deriving DecidableEq

/-- The call that a forwarder carries out for a sender. -/
structure Request where
  sender : String
  recipient : String
  value : Int
  gas : Int
  nonce : Int
  data : Bytes
  validUntil? : Option Int
  noExpiry : Bool
  typeName : String
  typeSuffix : String
  deriving DecidableEq

open MetaTx.Field MetaTx.Field.Reader

/-- An address in its normal form. -/
def addressReader : Reader String := fun v => (Address.normal v).mapError .rule

/-- Reads a domain. -/
def Domain.check (entries : List (String × Value)) : Checked Domain :=
  Domain.mk
    <$> required text "name" entries
    <*> required text "version" entries
    <*> required uint256 "chain_id" entries
    <*> required addressReader "verifying_contract" entries

namespace Request

/-- The sender goes by its public name, which wins, or by that of the field. -/
def checkSender (entries : List (String × Value)) : Checked String :=
  match Value.get? "from" entries, Value.get? "from_" entries with
  | none, some v => given addressReader "from_" v
  | _, _ => required addressReader "from" entries

/-- What is wrong with the expiry of a request. -/
def expiryRule? (validUntil? : Option Int) (noExpiry : Bool) : Option Rule :=
  match noExpiry, validUntil? with
  | true, some _ => some .bothExpiries
  | true, none => none
  | false, none => some .noExpiry
  | false, some time => if time = maxUint256 then some .endlessTime else none

/-- Checks the expiry of a request whose fields are all accepted. -/
def checkExpiry (r : Request) : Checked Request :=
  match expiryRule? r.validUntil? r.noExpiry with
  | some broken => .refused [⟨none, .rule broken⟩]
  | none => .ok r

/-- Reads the fields of a request. -/
def checkFields (entries : List (String × Value)) : Checked Request :=
  Request.mk
    <$> checkSender entries
    <*> required addressReader "to" entries
    <*> optional uint256 0 "value" entries
    <*> required uint256 "gas" entries
    <*> required uint256 "nonce" entries
    <*> optional bytes [] "data" entries
    <*> optional (orNothing uint256) none "valid_until_time" entries
    <*> optional bool false "no_expiry" entries
    <*> required someText "type_name" entries
    <*> optional text "" "type_suffix_data" entries

/-- Reads a request. -/
def check (entries : List (String × Value)) : Checked Request :=
  (checkFields entries).andThen checkExpiry

/-- The time until which a request is valid, as it stands on chain. -/
def expiry (r : Request) : Int :=
  if r.noExpiry then maxUint256 else r.validUntil?.getD 0

/-- The bytes of the suffix. -/
def suffixBytes (r : Request) : Bytes := Bytes.ofText r.typeSuffix

end Request

end MetaTx.Relay
