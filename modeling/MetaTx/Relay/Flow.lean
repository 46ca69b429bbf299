import MetaTx.Relay.Call

/-!
# Relaying through a gas payer

The sender signs the relay transaction, and the gas payer wraps the call of the forwarder
in a transaction of its own and pays for it.
-/

namespace MetaTx

/-- What the gas payer is told about its transaction. -/
structure GasTerms where
  nonce : Value
  gasLimit : Value
  maxFee : Value
  maxPriorityFee : Value

/-- A relay transaction on its way, with all that was made for it. -/
structure Relayed where
  request : SignedRelayTx
  call : ExecuteCall
  transaction : DynamicFeeTransaction
  sent : SignedTransaction

namespace Relayed

def senderSignature (r : Relayed) : Signature := r.request.signature

def payerSignature (r : Relayed) : Signature := r.sent.signature

def hashHex (r : Relayed) : String := Hex.render r.sent.hash

end Relayed

namespace Relay

/-- The transaction of the gas payer: the call of the forwarder, without value, on the
gas payer's chain. -/
def outerTransaction (call : ExecuteCall) (payer : Signer) (terms : GasTerms) :
    DynamicFeeTransaction where
  nonce := terms.nonce
  maxFee := terms.maxFee
  maxPriorityFee := terms.maxPriorityFee
  gas := terms.gasLimit
  recipient := .text call.contract
  data := .bytes call.data
  chainId := payer.chainValue

/-- Signs a relay transaction as its sender, and its call as the gas payer. There is a
notice if both are the same account. -/
def viaGasPayer (tx : RelayTx) (sender payer : Signer) (terms : GasTerms) : Run Relayed := do
  let account := sender.account
  if account = payer.account then
    Session.notify .warning s!"Sender and gas payer are the same account {account}"
  let signed ← tx.sign sender
  let call ← signed.call
  let transaction := outerTransaction call payer terms
  let sent ← payer.send (.dynamicFee transaction)
  return ⟨signed, call, transaction, sent⟩

end Relay

end MetaTx
