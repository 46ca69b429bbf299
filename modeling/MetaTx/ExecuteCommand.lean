import MetaTx.CommandLine
import MetaTx.Registry
import MetaTx.Relay.Builder
import MetaTx.Relay.Call
import MetaTx.Value.Json

/-!
# The command

Signs a request for a forwarder contract with the configured signer, which is the sender
that pays no gas, and prints what the contract is to be called with: the data of the call,
or the payload for a relay server. What the request says comes from the options. Errors of
the known kinds are noted and end the command with a code; faults are not caught.
-/

namespace MetaTx

/-- What may be left out when the command is asked for. -/
structure ExecuteOptions where
  data : String := "0x"
  gas : Int := 30000
  value : Int := 0
  validUntil? : Option Int := none
  noExpiry : Bool := false
  domainName : String := "my name"
  domainVersion : String := "1"
  typeName : String := "my name"
  typeSuffix : String := ""
  chainId? : Option Int := none
  /-- Whether the payload for a relay server is printed. -/
  json : Bool := false
  deriving DecidableEq

/-- What is asked of the command. -/
structure ExecuteCommand extends ExecuteOptions where
  forwarder : String
  recipient : String
  nonce : Int
  deriving DecidableEq

namespace ExecuteCommand

/-! ## Options -/

/-- What the options are for. -/
inductive Choice
  | help
  | forwarder
  | recipient
  | data
  | nonce
  | gas
  | value
  | validUntil
  | noExpiry
  | domainName
  | domainVersion
  | typeName
  | typeSuffix
  | chainId
  | json
  deriving DecidableEq

/-- The options of the command line. -/
def grammar : CommandLine.Grammar Choice where
  names := [
    ("help", .help), ("forwarder", .forwarder), ("to", .recipient), ("data", .data),
    ("nonce", .nonce), ("gas", .gas), ("value", .value), ("valid-until", .validUntil),
    ("no-expiry", .noExpiry),
    ("domain-name", .domainName), ("domain-version", .domainVersion),
    ("type-name", .typeName), ("type-suffix", .typeSuffix), ("chain-id", .chainId),
    ("json", .json)]
  letters := [('h', .help)]
  takesValue
    | .help | .noExpiry | .json => false
    | _ => true

/-- What is known of a command while its options are read. -/
structure Draft extends ExecuteOptions where
  forwarder? : Option String := none
  recipient? : Option String := none
  nonce? : Option Int := none
  /-- Whether there was an argument that belongs to nothing. -/
  hasSpare : Bool := false

/-- An integer from the text of an option. -/
def integer (s : String) : Except CommandLine.Refusal Int :=
  match Text.readInt? s with
  | some n => .ok n
  | none => .error .notInteger

/-- A draft with one more option; the last one of its kind counts. -/
def Draft.set (d : Draft) (choice : Choice) (s : String) : Except CommandLine.Refusal Draft := do
  match choice with
  | .help => return d
  | .forwarder => return { d with forwarder? := some s }
  | .recipient => return { d with recipient? := some s }
  | .data => return { d with data := s }
  | .nonce => return { d with nonce? := some (← integer s) }
  | .gas => return { d with gas := ← integer s }
  | .value => return { d with value := ← integer s }
  | .validUntil => return { d with validUntil? := some (← integer s) }
  | .noExpiry => return { d with noExpiry := true }
  | .domainName => return { d with domainName := s }
  | .domainVersion => return { d with domainVersion := s }
  | .typeName => return { d with typeName := s }
  | .typeSuffix => return { d with typeSuffix := s }
  | .chainId => return { d with chainId? := some (← integer s) }
  | .json => return { d with json := true }

/-- The command, if nothing is missing and nothing is left. -/
def Draft.command (d : Draft) : Except CommandLine.Refusal ExecuteCommand :=
  match d.forwarder?, d.recipient?, d.nonce? with
  | some forwarder, some recipient, some nonce =>
    if d.hasSpare then .error .spare
    else .ok { d.toExecuteOptions with forwarder, recipient, nonce }
  | _, _, _ => .error .missing

/-- What a command line asks for. -/
inductive Invocation
  | help
  | execute (command : ExecuteCommand)

/-- What is asked for once the rest is read too. Help is given as soon as it is asked for. -/
def Draft.finish (d : Draft) : List (CommandLine.Event Choice) →
    Except CommandLine.Refusal Invocation
  | [] => Invocation.execute <$> d.command
  | .refused refusal :: _ => .error refusal
  | .spare :: rest => finish { d with hasSpare := true } rest
  | .set .help _ :: _ => .ok .help
  | .set choice s :: rest =>
    match d.set choice s with
    | .ok d => finish d rest
    | .error refusal => .error refusal

/-- What a command line asks for. -/
def ofArguments (arguments : List String) : Except CommandLine.Refusal Invocation :=
  Draft.finish {} (grammar.events arguments)

/-! ## Execution -/

/-- The chain of the domain: the given one, or that of the signer for none or zero. -/
def chain (c : ExecuteCommand) (signer : Signer) : Value :=
  match c.chainId?.filter (· ≠ 0) with
  | some n => .int n
  | none => signer.chainValue

/-- A builder with what is asked, except for the expiry. -/
def baseBuilder (c : ExecuteCommand) (signer : Signer) : RelayBuilder :=
  ([(.domainName, .text c.domainName), (.domainVersion, .text c.domainVersion),
    (.domainChainId, c.chain signer), (.domainContract, .text c.forwarder),
    (.sender, .text signer.account), (.recipient, .text c.recipient), (.value, .int c.value),
    (.gas, .int c.gas), (.nonce, .int c.nonce), (.data, .text c.data),
    (.typeName, .text c.typeName), (.typeSuffix, .text c.typeSuffix)] :
    List (Relay.Slot × Value)).foldl (fun b (slot, v) => b.set slot v) {}

/-- A builder with all that is asked. That there is no expiry counts before a time. -/
def builder (c : ExecuteCommand) (signer : Signer) : Run RelayBuilder := do
  let b := c.baseBuilder signer
  if c.noExpiry then b.noExpiry
  else match c.validUntil? with
    | some n => return b.set .validUntil (.int n)
    | none => return b

/-- The request that is asked for, signed, with the call of the contract. -/
def sign (c : ExecuteCommand) (signer : Signer) : Run (SignedRelayTx × ExecuteCall) := do
  let b ← c.builder signer
  let tx ← b.build
  let signed ← tx.sign signer
  let call ← signed.call
  return (signed, call)

/-- What a command leaves: its exit code, what it prints, and what it complains of. -/
structure Outcome where
  code : Nat
  output : String := ""
  complaint : String := ""
  deriving DecidableEq

/-- What is printed of a signed request. -/
def printed (c : ExecuteCommand) (signed : SignedRelayTx) (call : ExecuteCall) :
    Except Error String := do
  if c.json then
    let payload ← signed.payload
    return (Value.map payload).json 0 ++ "\n"
  else return call.dataHex ++ "\n"

/-- Carries out a command. -/
def run (c : ExecuteCommand) (around : Surroundings) : Run Outcome := do
  let settings ← Settings.read [] around
  let work : Run (SignedRelayTx × ExecuteCall) := do
    let (stored, _) ← Registry.get {} settings around
    c.sign stored.signer
  match ← Session.attempt work with
  | .ok (signed, call) => return { code := 0, output := ← c.printed signed call }
  | .error e =>
    if e.isA .any then
      Session.notify .error ("Failed to build execute call: " ++ e.message)
      return { code := 1 }
    else throw e

/-- How the command is used. -/
def usage : String :=
  "usage: --forwarder ADDRESS --to ADDRESS --nonce N [--data HEX] [--gas N] [--value N]\n" ++
  "       [--valid-until TIME | --no-expiry] [--domain-name TEXT] [--domain-version TEXT]\n" ++
  "       [--type-name TEXT] [--type-suffix TEXT] [--chain-id N] [--json]\n"

/-- Does what a command line asks for. -/
def invoke (arguments : List String) (around : Surroundings) : Run Outcome :=
  match ofArguments arguments with
  | .error refusal => return { code := 2, complaint := refusal.message ++ "\n" ++ usage }
  | .ok .help => return { code := 0, output := usage }
  | .ok (.execute command) => command.run around

end ExecuteCommand

end MetaTx
