import MetaTx.Proofs.Abi.Part
import MetaTx.Proofs.Abi.RoundTrip
import MetaTx.Proofs.Relay.Checked
import MetaTx.Relay.Tx

/-!
# What a relay transaction hashes

The layouts that stand under the hashes of a checked relay transaction, word by word. None of
the hashes can fail. The words of a layout have a fixed width, which is what tells them apart
from a suffix behind them.
-/

namespace MetaTx

/-! ## Layouts of values -/

theorem length_keccakText (s : String) : (keccakText s).length = Abi.wordWidth :=
  length_keccak (Bytes.ofText s)

namespace Abi

theorem part_uint_of_isUint256 {n : Int} (h : Field.IsUint256 n) :
    part (.uint 256) (.int n) = .ok ⟨false, numberWord n.toNat⟩ := by
  obtain ⟨hlow, hhigh⟩ := h
  have hlt : n < Nat.pow 2 256 := hhigh
  simp only [part, integer, hlow, hlt, and_self, ↓reduceIte]
  obtain ⟨m, rfl⟩ := Int.eq_ofNat_of_zero_le hlow
  rw [integerWord_natCast (by exact_mod_cast hhigh), Int.toNat_natCast]

theorem part_address_of_length {bs : Bytes} (h : bs.length = Address.width) :
    part .address (.bytes bs) = .ok ⟨false, Bytes.padLeft wordWidth bs⟩ := by
  rw [part, if_pos h]

theorem part_address_render {bs : Bytes} (h : bs.length = Address.width) :
    part .address (.text (Address.render bs)) = .ok ⟨false, Bytes.padLeft wordWidth bs⟩ := by
  simp only [part, Address.ofText?_render h]

theorem part_bytes_eq (bs : Bytes) :
    part .bytes (.bytes bs) =
      .ok ⟨true, numberWord bs.length ++ Bytes.padToMultiple wordWidth bs⟩ := by
  rw [part]

theorem part_tuple_eq {types : List AbiType} {vs : List Value} {ps : List Part}
    (h : parts types vs = .ok ps) :
    part (.tuple types) (.list vs) = .ok ⟨ps.any Part.isDynamic, layout ps⟩ := by
  rw [part, h]
  rfl

theorem parts_nil_eq : parts [] [] = .ok [] := by rw [parts]

theorem parts_cons_eq {type : AbiType} {types : List AbiType} {v : Value} {vs : List Value}
    {p : Part} {ps : List Part} (hp : part type v = .ok p) (hps : parts types vs = .ok ps) :
    parts (type :: types) (v :: vs) = .ok (p :: ps) := by
  rw [parts, hp, hps]
  rfl

theorem encode_eq {types : List AbiType} {vs : List Value} {ps : List Part}
    (h : parts types vs = .ok ps) : encode types vs = .ok (layout ps) := by
  rw [encode, h]
  rfl

end Abi

namespace Relay

open Abi (numberWord wordWidth)

/-! ## Domains -/

/-- The words of a domain. -/
def domainLayout (name version : String) (chainId : Int) (contract : Bytes) : Bytes :=
  keccakText domainType ++ keccakText name ++ keccakText version ++ numberWord chainId.toNat ++
    Bytes.padLeft wordWidth contract

/-- A domain is laid out in words, in whatever way the address of its contract is given. -/
theorem encode_domain {d : Domain} (h : d.IsChecked) {contract : Bytes} {address : Value}
    (hcontract : Abi.part .address address = .ok ⟨false, Bytes.padLeft wordWidth contract⟩) :
    Abi.encode [.word 32, .word 32, .word 32, .uint 256, .address]
      [.bytes (keccakText domainType), .bytes (keccakText d.name), .bytes (keccakText d.version),
        .int d.chainId, address] = .ok (domainLayout d.name d.version d.chainId contract) := by
  have hparts := Abi.parts_cons_eq (Abi.part_word_of_length (length_keccakText domainType)) <|
    Abi.parts_cons_eq (Abi.part_word_of_length (length_keccakText d.name)) <|
    Abi.parts_cons_eq (Abi.part_word_of_length (length_keccakText d.version)) <|
    Abi.parts_cons_eq (Abi.part_uint_of_isUint256 h.chainId) <|
    Abi.parts_cons_eq hcontract Abi.parts_nil_eq
  refine (Abi.encode_eq hparts).trans ?_
  simp [Abi.layout, Abi.places, Abi.behind, domainLayout]

theorem encodeDomain_eq {d : Domain} (h : d.IsChecked) {contract : Bytes}
    (hlen : contract.length = Address.width) (hcontract : d.contract = Address.render contract) :
    encodeDomain (.text d.name) (.text d.version) (.int d.chainId) (.text d.contract) =
      .ok (domainLayout d.name d.version d.chainId contract) := by
  simp only [encodeDomain, textHash, hcontract, Address.ofValue_render hlen]
  exact encode_domain h (Abi.part_address_of_length hlen)

/-! ## Requests -/

/-- The words of a request: the hash of its type, its fields, and the hash of its data. -/
def requestLayout (typeHash sender recipient : Bytes) (value gas nonce : Int) (data : Bytes)
    (validUntil : Int) : Bytes :=
  typeHash ++ Bytes.padLeft wordWidth sender ++ Bytes.padLeft wordWidth recipient ++
    numberWord value.toNat ++ numberWord gas.toNat ++ numberWord nonce.toNat ++ keccak data ++
    numberWord validUntil.toNat

/-- A request is laid out in words, in whatever way its addresses are given. -/
theorem encode_request {r : Request} (h : r.IsChecked) {typeHash sender recipient : Bytes}
    {from_ to_ : Value} (htype : typeHash.length = wordWidth)
    (hsender : Abi.part .address from_ = .ok ⟨false, Bytes.padLeft wordWidth sender⟩)
    (hrecipient : Abi.part .address to_ = .ok ⟨false, Bytes.padLeft wordWidth recipient⟩) :
    Abi.encode [.word 32, .address, .address, .uint 256, .uint 256, .uint 256, .word 32, .uint 256]
      [.bytes typeHash, from_, to_, .int r.value, .int r.gas, .int r.nonce, .bytes (keccak r.data),
        .int r.expiry] =
      .ok (requestLayout typeHash sender recipient r.value r.gas r.nonce r.data r.expiry) := by
  have hparts := Abi.parts_cons_eq (Abi.part_word_of_length htype) <|
    Abi.parts_cons_eq hsender <|
    Abi.parts_cons_eq hrecipient <|
    Abi.parts_cons_eq (Abi.part_uint_of_isUint256 h.value) <|
    Abi.parts_cons_eq (Abi.part_uint_of_isUint256 h.gas) <|
    Abi.parts_cons_eq (Abi.part_uint_of_isUint256 h.nonce) <|
    Abi.parts_cons_eq (Abi.part_word_of_length (length_keccak r.data)) <|
    Abi.parts_cons_eq (Abi.part_uint_of_isUint256 h.isUint256_expiry) Abi.parts_nil_eq
  refine (Abi.encode_eq hparts).trans ?_
  simp [Abi.layout, Abi.places, Abi.behind, requestLayout]

theorem encodeRequest_eq {r : Request} (h : r.IsChecked) {typeHash sender recipient : Bytes}
    (htype : typeHash.length = wordWidth) (hslen : sender.length = Address.width)
    (hsender : r.sender = Address.render sender) (hrlen : recipient.length = Address.width)
    (hrecipient : r.recipient = Address.render recipient) :
    encodeRequest (.bytes typeHash) r.fields =
      .ok (requestLayout typeHash sender recipient r.value r.gas r.nonce r.data r.expiry) := by
  simp only [encodeRequest, Request.fields, hsender, hrecipient, Address.ofValue_render hslen,
    Address.ofValue_render hrlen]
  exact encode_request h htype (Abi.part_address_of_length hslen)
    (Abi.part_address_of_length hrlen)

end Relay

/-! ## Relay transactions -/

namespace RelayTx

open Relay
open Abi (wordWidth)

variable {tx : RelayTx}

theorem domainSeparator_eq (h : tx.IsChecked) {contract : Bytes}
    (hlen : contract.length = Address.width)
    (hcontract : tx.domain.contract = Address.render contract) :
    tx.domainSeparator = .ok (keccak (domainLayout tx.domain.name tx.domain.version
      tx.domain.chainId contract)) := by
  simp only [domainSeparator, Relay.domainSeparator, encodeDomain_eq h.domain hlen hcontract]
  rfl

theorem structHash_eq (h : tx.IsChecked) {sender recipient : Bytes}
    (hslen : sender.length = Address.width)
    (hsender : tx.request.sender = Address.render sender)
    (hrlen : recipient.length = Address.width)
    (hrecipient : tx.request.recipient = Address.render recipient) :
    tx.structHash = .ok (keccak (requestLayout tx.requestTypeHash sender recipient
      tx.request.value tx.request.gas tx.request.nonce tx.request.data tx.request.expiry ++
        tx.request.suffixBytes)) := by
  have hlayout := encodeRequest_eq h.request (length_keccakText tx.requestType)
    hslen hsender hrlen hrecipient
  change encodeRequest (.bytes tx.requestTypeHash) tx.request.fields = _ at hlayout
  simp only [structHash, hashRequest, hlayout]
  rfl

theorem digest_eq {domain content : Bytes} (hdomain : tx.domainSeparator = .ok domain)
    (hcontent : tx.structHash = .ok content) :
    tx.digest = .ok (keccak (Message.structured domain content)) := by
  rw [digest, hdomain, hcontent]
  rfl

/-! ### No hash fails -/

theorem IsChecked.exists_domain (h : tx.IsChecked) :
    ∃ domain, tx.domainSeparator = .ok domain ∧ domain.length = wordWidth := by
  obtain ⟨contract, hlen, hcontract⟩ := h.domain.contract
  exact ⟨_, domainSeparator_eq h hlen hcontract, length_keccak _⟩

theorem IsChecked.exists_content (h : tx.IsChecked) :
    ∃ content, tx.structHash = .ok content ∧ content.length = wordWidth := by
  obtain ⟨sender, hslen, hsender⟩ := h.request.sender
  obtain ⟨recipient, hrlen, hrecipient⟩ := h.request.recipient
  exact ⟨_, structHash_eq h hslen hsender hrlen hrecipient, length_keccak _⟩

theorem IsChecked.exists_digest (h : tx.IsChecked) :
    ∃ digest, tx.digest = .ok digest ∧ digest.length = Error.digestWidth := by
  obtain ⟨domain, hdomain, -⟩ := h.exists_domain
  obtain ⟨content, hcontent, -⟩ := h.exists_content
  exact ⟨_, digest_eq hdomain hcontent, length_keccak _⟩

end RelayTx

end MetaTx
