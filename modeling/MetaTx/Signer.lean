import MetaTx.Key.Private
import MetaTx.Service.Key
import MetaTx.Transaction
import MetaTx.TypedData

/-!
# Signers

A signer signs digests, with a private key that it holds or through the key service, and
is bound to a chain. Everything else that it signs is built on digests here, so that all
signers follow the same conventions:

* a digest gives a raw signature,
* a personal message or typed data one of the message convention,
* a transaction one with the chain id folded in.
-/

namespace MetaTx

/-- Where the private key of a signer is. -/
inductive Backend
  | held (key : PrivateKey)
  /-- A key of the service, with the public key that it had when the signer was made. -/
  | service (key : ServiceKey) (publicKey : PublicKey)
  deriving DecidableEq

/-- A key bound to a chain. -/
structure Signer where
  backend : Backend
  chainId? : Option Int
  deriving DecidableEq

namespace Signer

/-! ## Making signers -/

/-- A signer with a key that it holds. -/
def ofKey (key : PrivateKey) (chainId? : Option Int) : Signer := ⟨.held key, chainId?⟩

/-- A signer with a key that it holds, from its text. -/
def ofText (s : String) (chainId? : Option Int) : Except Error Signer := do
  return ofKey (← PrivateKey.ofText s) chainId?

/-- A signer for a key of the service, over a connection that there is already. The public key
is fetched first. -/
def fetch (key : ServiceKey) (chainId? : Option Int) : Run Signer := do
  let encoded ← key.fetchPublicKey
  let publicKey ← Der.publicKey encoded
  return ⟨.service key publicKey, chainId?⟩

/-- A signer for a key of the service, over a new connection. -/
def ofService (key : ServiceKey) (chainId? : Option Int) : Run Signer := do
  Session.connect key.region
  fetch key chainId?

/-- The same signer bound to another chain. -/
def withChainId (signer : Signer) (chainId? : Option Int) : Signer := { signer with chainId? }

/-! ## Views -/

def publicKey (signer : Signer) : PublicKey :=
  match signer.backend with
  | .held key => key.toPublic
  | .service _ publicKey => publicKey

/-- The checksummed text of the account address. -/
def account (signer : Signer) : String := signer.publicKey.account

/-- The word for the kind of signer in settings and logs. -/
def kind (signer : Signer) : String :=
  match signer.backend with
  | .held _ => "local"
  | .service .. => "kms"

/-- The name of the kind of signer. -/
def kindName (signer : Signer) : String :=
  match signer.backend with
  | .held _ => "LocalSigner"
  | .service .. => "KMSSigner"

def chainValue (signer : Signer) : Value :=
  match signer.chainId? with
  | some n => .int n
  | none => .null

/-- A signer as logs show it. -/
def display (signer : Signer) : Except Error String := do
  signer.chainValue.log
  let chain := signer.chainValue.display
  return s!"{signer.kindName}(type={signer.kind}, address={signer.account}, chain_id={chain})"

/-! ## Signing -/

/-- A low signature of a 32-byte digest in the raw convention. -/
def signDigest (signer : Signer) (digest : Bytes) : Run Signature := do
  if digest.length ≠ Error.digestWidth then throw (.digestLength digest.length)
  match signer.backend with
  | .held key => key.signDigest digest
  | .service key publicKey => key.signDigest publicKey digest

/-- A signature of a personal message. -/
def signMessage (signer : Signer) (message : Bytes) : Run Signature := do
  let sig ← signer.signDigest (Message.personalDigest message)
  return sig.toMessage

/-- A signature of data that has a digest of its own, which is signed as it is. -/
def signStructured (signer : Signer) (digest : Except Error Bytes) : Run Signature := do
  let digest ← digest
  let sig ← signer.signDigest digest
  return sig.toMessage

/-- A signature of typed data. -/
def signTypedData (signer : Signer) (payload : List (String × Value)) : Run Signature :=
  signer.signStructured (TypedData.digest payload)

/-- A transaction with the chain id of the signer, unless it has one of its own. -/
def bind (signer : Signer) (tx : Transaction) : Transaction :=
  match tx.chainId with
  | .null => tx.withChainId signer.chainValue
  | _ => tx

/-- A signature of a transaction that is bound to a chain. -/
def signBound (signer : Signer) (tx : Transaction) : Run Signature := do
  let hash ← tx.signingHash
  let sig ← signer.signDigest hash
  sig.toMessage.fold (tx.chainId.asInteger?.getD 0)

/-- A signature of a transaction. -/
def signTransaction (signer : Signer) (tx : Transaction) : Run Signature :=
  signer.signBound (signer.bind tx)

/-- A transaction as it is sent, with a signature. -/
def send (signer : Signer) (tx : Transaction) : Run SignedTransaction := do
  let tx := signer.bind tx
  let sig ← signer.signTransaction tx
  tx.encodeLogged sig

/-! ## Health -/

/-- Whether the service still holds the key. If the service fails, reports another kind of key, or
answers with a key that is of no use, this is no failure, but it leaves a notice. An answer
without a public key ends in a fault. -/
def checkService (key : ServiceKey) (publicKey : PublicKey) : Run Bool := do
  let fetched? : Option Bytes ← tryCatch (some <$> key.fetchPublicKey) fun
    | .remote cause => do
      Session.notify .warning ("KMS health check failed: " ++ cause.message)
      return none
    | e => throw e
  let some encoded := fetched? | return false
  match Der.publicKey encoded with
  | .ok found => return found == publicKey
  | .error e =>
    if e.isA .signing then
      Session.notify .warning ("KMS health check got an unusable public key: " ++ e.message)
      return false
    else throw e

/-- Whether a signer is ready to sign; one that holds its key always is. -/
def healthCheck (signer : Signer) : Run Bool :=
  match signer.backend with
  | .held _ => return true
  | .service key publicKey => checkService key publicKey

end Signer

end MetaTx
