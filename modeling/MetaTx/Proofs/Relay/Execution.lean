import MetaTx.Proofs.Key.Signature
import MetaTx.Proofs.Relay.Layout
import MetaTx.Relay.Call

/-!
# What a forwarder reads in its call

A forwarder has nothing but the data of the call. It takes the function apart from the
arguments, reads these strictly, and makes the digest again from what it has read. Below that is
written down without a look at how calls and digests are made, and then every call is shown to
give back the request that was signed, down to the digest.
-/

namespace MetaTx

open Abi (numberWord wordWidth)

/-! ## The forwarder -/

namespace Relay

/-- What a forwarder reads in the data of its call. -/
structure Execution where
  sender : Bytes
  recipient : Bytes
  value : Int
  gas : Int
  nonce : Int
  data : Bytes
  validUntil : Int
  domain : Bytes
  typeHash : Bytes
  suffix : Bytes
  signature : Bytes

namespace Execution

/-- The types of the arguments: the request, the hashes of its domain and type, its suffix, and
the signature. -/
def types : List AbiType := [
  .tuple [.address, .address, .uint 256, .uint 256, .uint 256, .bytes, .uint 256],
  .word 32, .word 32, .bytes, .bytes]

def ofValues? : List Value → Option Execution
  | [.list [.bytes sender, .bytes recipient, .int value, .int gas, .int nonce, .bytes data,
      .int validUntil], .bytes domain, .bytes typeHash, .bytes suffix, .bytes signature] =>
    some ⟨sender, recipient, value, gas, nonce, data, validUntil, domain, typeHash, suffix,
      signature⟩
  | _ => none

/-- Reads the data of a call. -/
def ofCall? (data : Bytes) : Option Execution :=
  if data.take 4 = executeSelector then
    (Abi.decode? types (data.drop 4)).bind ofValues?
  else none

/-- The hash of the request, from what was read. -/
def content (e : Execution) : Bytes :=
  keccak (e.typeHash ++ Bytes.padLeft wordWidth e.sender ++ Bytes.padLeft wordWidth e.recipient ++
    numberWord e.value.toNat ++ numberWord e.gas.toNat ++ numberWord e.nonce.toNat ++
    keccak e.data ++ numberWord e.validUntil.toNat ++ e.suffix)

/-- The digest that is to be signed, from what was read. -/
def digest (e : Execution) : Bytes := keccak ([0x19, 0x01] ++ e.domain ++ e.content)

/-- What was read is a relay transaction with the bytes of a signature. -/
structure Carries (e : Execution) (tx : RelayTx) (signature : Bytes) : Prop where
  sender_length : e.sender.length = Address.width
  sender : tx.request.sender = Address.render e.sender
  recipient_length : e.recipient.length = Address.width
  recipient : tx.request.recipient = Address.render e.recipient
  value : e.value = tx.request.value
  gas : e.gas = tx.request.gas
  nonce : e.nonce = tx.request.nonce
  data : e.data = tx.request.data
  validUntil : e.validUntil = tx.request.expiry
  domain : tx.domainSeparator = .ok e.domain
  typeHash : e.typeHash = tx.requestTypeHash
  suffix : e.suffix = Bytes.ofText tx.request.typeSuffix
  signature : e.signature = signature

end Execution

end Relay

/-- How many bytes the data of a call has for the data and the suffix of a request, which are padded:
there are four bytes for the function, five places of arguments, the seven of the request, three
lengths, and a padded signature. -/
def Relay.callLength (data suffix : Bytes) : Nat :=
  580 + Abi.paddedWidth data.length + Abi.paddedWidth suffix.length

def RelayTx.callLength (tx : RelayTx) : Nat :=
  Relay.callLength tx.request.data tx.request.suffixBytes

/-! ## Calls -/

namespace SignedRelayTx

open Relay

variable {tx : RelayTx} {sig : Signature}

theorem isSized_of_isForwarderV (hr : Field.IsUint256 sig.r) (hs : Field.IsUint256 sig.s)
    (hv : sig.v = 27 ∨ sig.v = 28) : sig.IsSized := by
  obtain ⟨hr0, hr⟩ := hr
  obtain ⟨hs0, hs⟩ := hs
  exact ⟨hr0, hr, hs0, hs, by omega, by omega⟩

/-- The parts of a request in the call. -/
def requestParts (r : Request) (sender recipient : Bytes) : List Abi.Part := [
  ⟨false, Bytes.padLeft wordWidth sender⟩, ⟨false, Bytes.padLeft wordWidth recipient⟩,
  ⟨false, numberWord r.value.toNat⟩, ⟨false, numberWord r.gas.toNat⟩,
  ⟨false, numberWord r.nonce.toNat⟩,
  ⟨true, numberWord r.data.length ++ Bytes.padToMultiple wordWidth r.data⟩,
  ⟨false, numberWord r.expiry.toNat⟩]

/-- A checked request can be laid out, whatever its data. -/
theorem part_request_eq {r : Request} (h : r.IsChecked) {sender recipient : Bytes}
    (hslen : sender.length = Address.width) (hsender : r.sender = Address.render sender)
    (hrlen : recipient.length = Address.width) (hrecipient : r.recipient = Address.render recipient) :
    Abi.part requestAbi (.list r.asTuple) =
      .ok ⟨true, Abi.layout (requestParts r sender recipient)⟩ := by
  rw [Request.asTuple, hsender, hrecipient]
  exact Abi.part_tuple_eq <|
    Abi.parts_cons_eq (Abi.part_address_render hslen) <|
    Abi.parts_cons_eq (Abi.part_address_render hrlen) <|
    Abi.parts_cons_eq (Abi.part_uint_of_isUint256 h.value) <|
    Abi.parts_cons_eq (Abi.part_uint_of_isUint256 h.gas) <|
    Abi.parts_cons_eq (Abi.part_uint_of_isUint256 h.nonce) <|
    Abi.parts_cons_eq (Abi.part_bytes_eq r.data) <|
    Abi.parts_cons_eq (Abi.part_uint_of_isUint256 h.isUint256_expiry) Abi.parts_nil_eq

theorem arguments_eq {domain : Bytes} (hdomain : tx.domainSeparator = .ok domain)
    (hsig : sig.IsSized) :
    (SignedRelayTx.mk tx sig).arguments = .ok [.list tx.request.asTuple, .bytes domain,
      .bytes tx.requestTypeHash, .bytes tx.request.suffixBytes, .bytes sig.layout] := by
  simp only [arguments, hdomain, Signature.toBytes_eq hsig]
  rfl

theorem encode_arguments_eq {domain : Bytes} (h : tx.IsChecked) (hlen : domain.length = wordWidth)
    {sender recipient : Bytes} (hslen : sender.length = Address.width)
    (hsender : tx.request.sender = Address.render sender) (hrlen : recipient.length = Address.width)
    (hrecipient : tx.request.recipient = Address.render recipient) (signature : Bytes) :
    Abi.encode executeAbi [.list tx.request.asTuple, .bytes domain, .bytes tx.requestTypeHash,
      .bytes tx.request.suffixBytes, .bytes signature] =
        .ok (Abi.layout [⟨true, Abi.layout (requestParts tx.request sender recipient)⟩,
          ⟨false, domain⟩, ⟨false, tx.requestTypeHash⟩,
          ⟨true, numberWord tx.request.suffixBytes.length ++
            Bytes.padToMultiple wordWidth tx.request.suffixBytes⟩,
          ⟨true, numberWord signature.length ++ Bytes.padToMultiple wordWidth signature⟩]) :=
  Abi.encode_eq <|
    Abi.parts_cons_eq (part_request_eq h.request hslen hsender hrlen hrecipient) <|
    Abi.parts_cons_eq (Abi.part_word_of_length hlen) <|
    Abi.parts_cons_eq (Abi.part_word_of_length (length_keccakText tx.requestType)) <|
    Abi.parts_cons_eq (Abi.part_bytes_eq tx.request.suffixBytes) <|
    Abi.parts_cons_eq (Abi.part_bytes_eq signature) Abi.parts_nil_eq

/-- The call of a checked relay transaction is made of the layout of its arguments. -/
theorem exists_call {domain : Bytes} (h : tx.IsChecked) (hdomain : tx.domainSeparator = .ok domain)
    (hlen : domain.length = wordWidth) (hsig : sig.IsSized) (hv : sig.v = 27 ∨ sig.v = 28) :
    ∃ encoded, (SignedRelayTx.mk tx sig).call =
        .ok ⟨tx.domain.contract, executeSelector ++ encoded⟩ ∧
      Abi.encode executeAbi [.list tx.request.asTuple, .bytes domain, .bytes tx.requestTypeHash,
        .bytes tx.request.suffixBytes, .bytes sig.layout] = .ok encoded := by
  obtain ⟨sender, hslen, hsender⟩ := h.request.sender
  obtain ⟨recipient, hrlen, hrecipient⟩ := h.request.recipient
  have hencoded := encode_arguments_eq h hlen hslen hsender hrlen hrecipient sig.layout
  have hforwarder : isForwarderV sig.v = true := by
    rcases hv with hv | hv <;> rw [hv] <;> rfl
  refine ⟨_, ?_, hencoded⟩
  simp only [call, hforwarder, arguments_eq hdomain hsig]
  change (Except.mapError ofCallFault (Except.mapError .fault (Abi.encode executeAbi _)) >>= _) = _
  rw [hencoded]
  rfl

/-- A checked relay transaction has a call with every signature that fits into one. -/
theorem exists_call_of_isSized (h : tx.IsChecked) (hsig : sig.IsSized)
    (hv : sig.v = 27 ∨ sig.v = 28) :
    ∃ call, (SignedRelayTx.mk tx sig).call = .ok call ∧ call.contract = tx.domain.contract := by
  obtain ⟨domain, hdomain, hlen⟩ := h.exists_domain
  obtain ⟨encoded, hcall, -⟩ := exists_call h hdomain hlen hsig hv
  exact ⟨_, hcall, rfl⟩

theorem length_executeSelector : executeSelector.length = 4 := by
  rw [executeSelector, List.length_take, length_keccakText]
  rfl

theorem length_layout_requestParts (r : Request) {sender recipient : Bytes}
    (hslen : sender.length = Address.width) (hrlen : recipient.length = Address.width) :
    (Abi.layout (requestParts r sender recipient)).length =
      8 * wordWidth + Abi.paddedWidth r.data.length := by
  have hs : (Bytes.padLeft wordWidth sender).length = wordWidth :=
    Abi.length_padLeft (by rw [hslen]; decide)
  have hr : (Bytes.padLeft wordWidth recipient).length = wordWidth :=
    Abi.length_padLeft (by rw [hrlen]; decide)
  simp only [Abi.length_layout, requestParts, Abi.placesWidth, Abi.Part.placeWidth, Abi.behind_cons,
    Abi.behind_nil, List.length_append, List.length_nil, Abi.length_numberWord,
    Abi.length_padToMultiple, hs, hr, Bool.false_eq_true, ↓reduceIte]
  omega

theorem length_encode_arguments {domain encoded : Bytes} (h : tx.IsChecked)
    (hlen : domain.length = wordWidth) (hencoded : Abi.encode executeAbi [.list tx.request.asTuple,
      .bytes domain, .bytes tx.requestTypeHash, .bytes tx.request.suffixBytes,
      .bytes sig.layout] = .ok encoded) :
    (executeSelector ++ encoded).length = tx.callLength := by
  obtain ⟨sender, hslen, hsender⟩ := h.request.sender
  obtain ⟨recipient, hrlen, hrecipient⟩ := h.request.recipient
  have hlayout := encode_arguments_eq h hlen hslen hsender hrlen hrecipient sig.layout
  obtain rfl := Except.ok.inj (hencoded.symm.trans hlayout)
  have htype : tx.requestTypeHash.length = wordWidth := length_keccakText tx.requestType
  have hsig : Abi.paddedWidth sig.layout.length = 96 := by rw [Signature.length_layout]; rfl
  have hword : wordWidth = 32 := rfl
  simp only [Abi.length_layout, Abi.placesWidth, Abi.Part.placeWidth, Abi.behind_cons,
    Abi.behind_nil, List.length_append, List.length_nil, Abi.length_numberWord,
    Abi.length_padToMultiple, length_layout_requestParts _ hslen hrlen, hlen,
    htype, hsig, length_executeSelector, Bool.false_eq_true, ↓reduceIte, RelayTx.callLength,
    Relay.callLength]
  omega

/-- What is read in the layout of the arguments is what was laid out. -/
theorem ofCall?_of_encode {domain encoded sender recipient : Bytes} {r : Request}
    {typeHash suffix signature : Bytes} (hdomain : domain.length = wordWidth)
    (htype : typeHash.length = wordWidth) (hslen : sender.length = Address.width)
    (hsender : r.sender = Address.render sender) (hrlen : recipient.length = Address.width)
    (hrecipient : r.recipient = Address.render recipient)
    (h : Abi.encode executeAbi [.list r.asTuple, .bytes domain, .bytes typeHash, .bytes suffix,
      .bytes signature] = .ok encoded)
    (hfit : (executeSelector ++ encoded).length < Bytes.limit wordWidth) :
    Execution.ofCall? (executeSelector ++ encoded) =
      some ⟨sender, recipient, r.value, r.gas, r.nonce, r.data, r.expiry, domain, typeHash, suffix,
        signature⟩ := by
  rw [List.length_append] at hfit
  have hsized : AbiType.areSized executeAbi = true := rfl
  have hread := Abi.decode?_encode hsized h (by omega)
  rw [Execution.ofCall?, List.take_left' length_executeSelector, if_pos rfl,
    List.drop_left' length_executeSelector]
  change (Abi.decode? executeAbi encoded).bind _ = _
  have hd : Bytes.padRight 32 domain = domain := Abi.padRight_of_length hdomain
  have ht : Bytes.padRight 32 typeHash = typeHash := Abi.padRight_of_length htype
  rw [hread]
  simp [executeAbi, requestAbi, Abi.shownAll, Abi.shown, Request.asTuple, hsender,
    hrecipient, Address.ofText?_render hslen, Address.ofText?_render hrlen, hd, ht,
    Execution.ofValues?]

end SignedRelayTx

namespace RelayBuilder

open Relay

/-- **A forwarder reads back what was signed.** How long the data of the call is can be told from
the request. All that is asked for reading is that a word can count the bytes, as the layout asks of
all lengths in it. -/
theorem exists_execution_of_build {builder : RelayBuilder} {tx : RelayTx} {sig : Signature}
    (h : builder.build = .ok tx) (hv : sig.v = 27 ∨ sig.v = 28) (hr : Field.IsUint256 sig.r)
    (hs : Field.IsUint256 sig.s) :
    ∃ call raw, (SignedRelayTx.mk tx sig).call = .ok call ∧ call.contract = tx.domain.contract ∧
      executeSelector <+: call.data ∧ call.data.length = tx.callLength ∧ sig.toBytes = .ok raw ∧
      raw.length = 65 ∧ (tx.callLength < Bytes.limit wordWidth →
        ∃ e, Execution.ofCall? call.data = some e ∧ e.Carries tx raw ∧
          tx.digest = .ok e.digest) := by
  have hchecked := isChecked_of_build h
  have hsig := SignedRelayTx.isSized_of_isForwarderV hr hs hv
  obtain ⟨contract, hclen, hcontract⟩ := hchecked.domain.contract
  obtain ⟨sender, hslen, hsender⟩ := hchecked.request.sender
  obtain ⟨recipient, hrlen, hrecipient⟩ := hchecked.request.recipient
  have hdomain := RelayTx.domainSeparator_eq hchecked hclen hcontract
  have hcontent := RelayTx.structHash_eq hchecked hslen hsender hrlen hrecipient
  have hdlen := length_keccak
    (domainLayout tx.domain.name tx.domain.version tx.domain.chainId contract)
  obtain ⟨encoded, hcall, hencoded⟩ := SignedRelayTx.exists_call hchecked hdomain hdlen hsig hv
  have hlen := SignedRelayTx.length_encode_arguments hchecked hdlen hencoded
  refine ⟨_, _, hcall, rfl, List.prefix_append _ _, hlen, Signature.toBytes_eq hsig,
    Signature.length_layout sig, fun hfit => ?_⟩
  rw [← hlen] at hfit
  have hread := SignedRelayTx.ofCall?_of_encode hdlen (length_keccakText tx.requestType) hslen
    hsender hrlen hrecipient hencoded hfit
  refine ⟨_, hread, ⟨hslen, hsender, hrlen, hrecipient, rfl, rfl, rfl, rfl, rfl, hdomain, rfl, rfl,
    rfl⟩, ?_⟩
  exact RelayTx.digest_eq hdomain hcontent

/-- The call of the sample, with a signature of two ones, is read back. -/
theorem exists_execution_of_sample :
    ∃ call raw, (SignedRelayTx.mk .sample ⟨1, 1, 27⟩).call = .ok call ∧
      call.contract = RelayTx.sample.domain.contract ∧ executeSelector <+: call.data ∧
      call.data.length = RelayTx.sample.callLength ∧ (Signature.mk 1 1 27).toBytes = .ok raw ∧
      raw.length = 65 ∧ ∃ e, Execution.ofCall? call.data = some e ∧ e.Carries .sample raw ∧
        RelayTx.sample.digest = .ok e.digest := by
  have hv : (Signature.mk 1 1 27).v = 27 ∨ (Signature.mk 1 1 27).v = 28 := .inl rfl
  obtain ⟨call, raw, hcall, hcontract, hselector, hlen, hraw, hwidth, hread⟩ :=
    exists_execution_of_build build_sample hv ⟨by decide, by decide⟩ ⟨by decide, by decide⟩
  have hfit : RelayTx.sample.callLength < Bytes.limit wordWidth := by decide +kernel
  exact ⟨call, raw, hcall, hcontract, hselector, hlen, hraw, hwidth, hread hfit⟩

end RelayBuilder

end MetaTx
