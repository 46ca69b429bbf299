import MetaTx.Proofs.Message
import MetaTx.Proofs.Transaction.Preimage

/-!
# What is signed is told by its hashed bytes

Accounts sign personal messages, structured requests and transactions of two shapes, with the same
key. What is hashed for one of them is never what is hashed for another, so that a signature of
one is no signature of the other, as long as the hash has no collision on them.
-/

namespace MetaTx

/-! ## What can be signed -/

inductive Signable
  | personal (message : Bytes)
  /-- A request, by the hash of its domain and the hash of its content. -/
  | structured (domain content : Bytes)
  | transaction (tx : Transaction)

namespace Signable

/-- The bytes that are hashed. -/
def preimage : Signable → Except Error Bytes
  | personal message => .ok (Message.personal message)
  | structured domain content => .ok (Message.structured domain content)
  | transaction tx => tx.preimage

/-- The hash that is signed. -/
def digest : Signable → Except Error Bytes
  | personal message => .ok (Message.personalDigest message)
  | structured domain content => .ok (Message.structuredDigest domain content)
  | transaction tx => tx.signingHash

theorem digest_eq (a : Signable) : a.digest = keccak <$> a.preimage := by
  cases a with
  | personal message => rfl
  | structured domain content => rfl
  | transaction tx =>
    simp only [digest, preimage, Transaction.signingHash]
    cases tx.preimage <;> rfl

/-- Whether the parts have the sizes that they are to have: the hashes of a request 32 bytes, and
what is laid out of a transaction a length that can be written. -/
def Fits : Signable → Prop
  | personal _ => True
  | structured domain content => domain.length = 32 ∧ content.length = 32
  | transaction tx => tx.Fits

/-- Two are of the same kind and have the same content. -/
inductive Same : Signable → Signable → Prop
  | personal (message : Bytes) : Same (.personal message) (.personal message)
  | structured (domain content : Bytes) :
      Same (.structured domain content) (.structured domain content)
  | transaction {a b : Transaction} (h : a.Same b) : Same (.transaction a) (.transaction b)

/-! ## Kinds are told by the first byte -/

/-- What is hashed for a transaction starts with no byte that a message starts with. -/
theorem head?_ne_of_preimage {tx : Transaction} {bs : Bytes} (h : tx.preimage = .ok bs)
    (hfit : tx.Fits) : bs.head? ≠ some 0x19 := by
  obtain ⟨fields, chainId, hfields, hchain, rfl⟩ := Transaction.exists_fields_of_preimage h
  obtain ⟨b, rest, hbs, hb⟩ :=
    TransactionFields.preimage_eq_cons (hfit _ (Transaction.signedItem_eq hfields hchain))
  rw [hbs, List.head?_cons]
  rintro ⟨⟩
  rcases hb with hb | hb <;> exact absurd hb (by decide)

theorem head?_personal (message : Bytes) : (Message.personal message).head? = some 0x19 := rfl

theorem head?_structured (domain content : Bytes) :
    (Message.structured domain content).head? = some 0x19 := rfl

/-! ## A sample -/

/-- A call that announces one storage key, to and for an address that is given in some way. -/
def sampleCall (address : Value) : DynamicFeeTransaction where
  nonce := .int 7
  maxFee := .int 3
  maxPriorityFee := .int 2
  gas := .int 21000
  recipient := address
  data := .bytes [1, 2, 3]
  chainId := .int 1
  accessList := [⟨address, [.int 5]⟩]

def sampleAddress : Bytes := List.replicate 20 0x11

/-- The same address in digits. -/
def sampleText : Value := .text "0x1111111111111111111111111111111111111111"

def sampleFields : TransactionFields :=
  .dynamicFee ⟨7, 2, 3, 21000, sampleAddress, 0, [1, 2, 3], [(sampleAddress, [5])]⟩

theorem holds_sampleCall {address : Value}
    (h : Transaction.addressBytes address = .ok sampleAddress) :
    (Transaction.dynamicFee (sampleCall address)).Holds sampleFields := by
  have hentry : AccessEntry.Holds ⟨address, [.int 5]⟩ (sampleAddress, [5]) :=
    ⟨h, rfl, .cons ⟨rfl, by decide⟩ .nil⟩
  exact .dynamicFee ⟨rfl, rfl, rfl, rfl, h, rfl, rfl, .cons hentry .nil⟩

theorem preimage_sampleCall {address : Value}
    (h : Transaction.addressBytes address = .ok sampleAddress) :
    (transaction (.dynamicFee (sampleCall address))).preimage = .ok (sampleFields.preimage 1) :=
  Transaction.preimage_eq (holds_sampleCall h) rfl

theorem fits_sampleCall {address : Value}
    (h : Transaction.addressBytes address = .ok sampleAddress) :
    (Transaction.dynamicFee (sampleCall address)).Fits := by
  intro item hitem
  have hlayout : (Transaction.dynamicFee (sampleCall address)).signedItem =
      .ok (.list (sampleFields.signedItems 1)) :=
    Transaction.signedItem_eq (holds_sampleCall h) rfl
  obtain rfl := Except.ok.inj (hlayout.symm.trans hitem)
  have hshort : (Rlp.encodeAll (sampleFields.signedItems 1)).length < Bytes.limit 8 := by
    decide +kernel
  exact hshort

/-- **Bytes that are hashed tell what is signed.** Two requests for a signature whose hashed bytes
are equal are of the same kind and have the same content. -/
theorem same_of_preimage {a b : Signable} {bs : Bytes} (ha : a.preimage = .ok bs)
    (hb : b.preimage = .ok bs) (hfit : a.Fits) (hfit' : b.Fits) : a.Same b := by
  cases a with
  | personal message =>
    cases ha
    cases b with
    | personal message' =>
      obtain rfl := Message.personal_inj (Except.ok.inj hb)
      exact .personal message'
    | structured domain' content' =>
      exact absurd (Except.ok.inj hb).symm (Message.personal_ne_structured _ _ _)
    | transaction tx' => exact absurd (head?_personal message) (head?_ne_of_preimage hb hfit')
  | structured domain content =>
    cases ha
    cases b with
    | personal message' => exact absurd (Except.ok.inj hb) (Message.personal_ne_structured _ _ _)
    | structured domain' content' =>
      obtain ⟨rfl, rfl⟩ :=
        Message.structured_inj (hfit'.1.trans hfit.1.symm) (Except.ok.inj hb)
      exact .structured domain' content'
    | transaction tx' =>
      exact absurd (head?_structured domain content) (head?_ne_of_preimage hb hfit')
  | transaction tx =>
    cases b with
    | personal message' =>
      cases hb
      exact absurd (head?_personal message') (head?_ne_of_preimage ha hfit)
    | structured domain' content' =>
      cases hb
      exact absurd (head?_structured domain' content') (head?_ne_of_preimage ha hfit)
    | transaction tx' => exact .transaction (Transaction.same_of_preimage_eq ha hb hfit hfit')

theorem same_of_preimage_sample :
    (transaction (.dynamicFee (sampleCall (.bytes sampleAddress)))).Same
      (transaction (.dynamicFee (sampleCall sampleText))) :=
  same_of_preimage (preimage_sampleCall rfl) (preimage_sampleCall rfl) (fits_sampleCall rfl)
    (fits_sampleCall rfl)

end Signable

end MetaTx
