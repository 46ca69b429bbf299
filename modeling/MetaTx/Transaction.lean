import MetaTx.Address
import MetaTx.Key.Signature
import MetaTx.Rlp

/-!
# Transactions

Two shapes of transaction: the legacy one, whose signature carries the chain id folded
into `v`, and the dynamic fee one (EIP-1559), whose signature carries a parity. The
fields hold what the caller gave; they are checked when the transaction is written. First
the addresses are read, then every field has to fit its place.
-/

namespace MetaTx

/-- An address with the storage keys that a transaction announces for it. -/
structure AccessEntry where
  address : Value
  keys : List Value

/-- A transaction with one price of gas. Its fields are unchecked. -/
structure LegacyTransaction where
  nonce : Value
  gasPrice : Value
  gas : Value
  recipient : Value
  value : Value := .int 0
  data : Value := .bytes []
  chainId : Value := .null

/-- A transaction with limits on both fees of its gas, and a list of accesses. -/
structure DynamicFeeTransaction where
  nonce : Value
  maxFee : Value
  maxPriorityFee : Value
  gas : Value
  recipient : Value
  value : Value := .int 0
  data : Value := .bytes []
  chainId : Value := .null
  accessList : List AccessEntry := []

/-- A transaction of either shape. -/
inductive Transaction
  | legacy (tx : LegacyTransaction)
  | dynamicFee (tx : DynamicFeeTransaction)

/-- A transaction with its signature, as it is sent. -/
structure SignedTransaction where
  raw : Bytes
  signature : Signature

namespace SignedTransaction

/-- The hash under which the transaction is known. -/
def hash (tx : SignedTransaction) : Bytes := keccak tx.raw

def rawHex (tx : SignedTransaction) : String := Hex.render tx.raw

end SignedTransaction

namespace Transaction

/-! ## Fields -/

/-- A field that does not fit its place. -/
def misfit : Error := .encoding .rlp

/-- A number that is not negative. -/
def number : Value → Except Error Rlp.Item
  | .int n => if 0 ≤ n then .ok (.ofNat n.toNat) else .error misfit
  | _ => .error misfit

def binary : Value → Except Error Rlp.Item
  | .bytes bs => .ok (.bytes bs)
  | _ => .error misfit

/-- The number of bytes of a storage key. -/
def keyWidth : Nat := 32

/-- A storage key, a number written in all of its bytes. -/
def storageKey : Value → Except Error Rlp.Item
  | .int n =>
    if 0 ≤ n ∧ n < Bytes.limit keyWidth then .ok (.bytes (Bytes.ofNat keyWidth n.toNat))
    else .error misfit
  | _ => .error misfit

/-- The bytes of an address; nothing is no bytes. The error tells what was given. -/
def addressBytes : Value → Except Error Bytes
  | .null => .ok []
  | v => (Address.ofValue v).mapError fun
    | .malformedAddress => (Error.encoding .address).telling v
    | cause => .fault cause

/-- An access list with its addresses read. -/
def readAccessList (entries : List AccessEntry) : Except Error (List (Bytes × List Value)) :=
  entries.mapM fun entry => return (← addressBytes entry.address, entry.keys)

/-- An entry of an access list, which is to have an address. -/
def accessItem (entry : Bytes × List Value) : Except Error Rlp.Item := do
  if entry.1.length ≠ Address.width then throw misfit
  let keys ← entry.2.mapM storageKey
  return .list [.bytes entry.1, .list keys]

/-! ## Layouts -/

/-- The legacy layout: the fields, then three numbers. -/
def legacyItem (tx : LegacyTransaction) (last : List Value) : Except Error Rlp.Item := do
  let recipient ← addressBytes tx.recipient
  let front ← [tx.nonce, tx.gasPrice, tx.gas].mapM number
  let value ← number tx.value
  let data ← binary tx.data
  let last ← last.mapM number
  return .list (front ++ [.bytes recipient, value, data] ++ last)

/-- The byte in front of the dynamic fee layout. -/
def dynamicFeeType : UInt8 := 0x02

/-- The dynamic fee layout: the fields, then some numbers. -/
def dynamicFeeItem (tx : DynamicFeeTransaction) (last : List Value) :
    Except Error Rlp.Item := do
  let recipient ← addressBytes tx.recipient
  let accessList ← readAccessList tx.accessList
  let front ← [tx.chainId, tx.nonce, tx.maxPriorityFee, tx.maxFee, tx.gas].mapM number
  let value ← number tx.value
  let data ← binary tx.data
  let entries ← accessList.mapM accessItem
  let last ← last.mapM number
  return .list (front ++ [.bytes recipient, value, data, .list entries] ++ last)

/-! ## Signing -/

def shape : Transaction → TransactionShape
  | legacy _ => .legacy
  | dynamicFee _ => .dynamicFee

def chainId : Transaction → Value
  | legacy tx => tx.chainId
  | dynamicFee tx => tx.chainId

def withChainId (chainId : Value) : Transaction → Transaction
  | legacy tx => legacy { tx with chainId }
  | dynamicFee tx => dynamicFee { tx with chainId }

/-- The bytes whose hash is signed. The legacy ones end in the chain id and two zeros. -/
def preimage (tx : Transaction) : Except Error Bytes :=
  match tx.chainId with
  | .null => .error (.signing (.noChainId tx.shape))
  | _ =>
    match tx with
    | legacy tx => do
      let item ← legacyItem tx [tx.chainId, .int 0, .int 0]
      return Rlp.encode item
    | dynamicFee tx => do
      let item ← dynamicFeeItem tx []
      return dynamicFeeType :: Rlp.encode item

/-- The hash that is signed, bound to the chain. -/
def signingHash (tx : Transaction) : Except Error Bytes := do
  return keccak (← tx.preimage)

/-- Whether a signature is folded with the chain id of a transaction. -/
def isFoldedWith (sig : Signature) (chainId : Value) : Bool :=
  sig.chainId?.isSome && sig.chainId? == chainId.asInteger?

/-- The bytes that are sent, with a signature at the end. -/
def encodeSigned (tx : Transaction) (sig : Signature) : Except Error SignedTransaction := do
  match tx with
  | legacy tx =>
    if !isFoldedWith sig tx.chainId then throw (.signing .otherChain)
    let item ← legacyItem tx [.int sig.v, .int sig.r, .int sig.s]
    return ⟨Rlp.encode item, sig⟩
  | dynamicFee tx =>
    let item ← dynamicFeeItem tx [.int sig.recoveryId, .int sig.r, .int sig.s]
    return ⟨dynamicFeeType :: Rlp.encode item, sig⟩

/-- The bytes that are sent. Once they are made, the chain is told in the log. -/
def encodeLogged (tx : Transaction) (sig : Signature) : Except Error SignedTransaction := do
  let sent ← tx.encodeSigned sig
  tx.chainId.log
  return sent

end Transaction

end MetaTx
