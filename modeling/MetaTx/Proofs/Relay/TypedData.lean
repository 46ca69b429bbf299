import MetaTx.Proofs.Relay.Layout
import MetaTx.Proofs.TypedData

/-!
# Relay transactions as typed data

A wallet that signs by itself is given a relay transaction as typed data, and hashes it by the
general rules for such data. Whenever it comes to a digest, this is the digest that the sender
signs here. It does not come to one for every name of the type: the name of the domain type, of a
basic type that a request has a field of, or of an array is taken for something else.
-/

namespace MetaTx

open TypedData (Member Field hashField single isSelfContained)

namespace Relay

/-! ## Schemas -/

/-- The members of a type as a schema has them. -/
def schemaMembers (members : List (String × String)) : List Member :=
  members.map fun (name, type) => ⟨some (.text name), type⟩

/-- Whether the schema of a request under a name defines the type that is meant, and only this. -/
structure IsViewable (name : String) : Prop where
  domain : name ≠ TypedData.domainType
  fields : ∀ member ∈ requestMembers, name ≠ member.2
  selfContained : isSelfContained name = true

theorem areBasic_domainMembers : TypedData.AreBasic (schemaMembers domainMembers) := by
  unfold TypedData.AreBasic
  decide

theorem areBasic_requestMembers : TypedData.AreBasic (schemaMembers requestMembers) := by
  unfold TypedData.AreBasic
  decide

theorem encodeType_domain :
    TypedData.encodeType (single TypedData.domainType (schemaMembers domainMembers))
      TypedData.domainType = .ok domainType :=
  TypedData.encodeType_single areBasic_domainMembers rfl

theorem encodeType_request (name : String) :
    TypedData.encodeType (single name (schemaMembers requestMembers)) name =
      if isSelfContained name then .ok (requestType name "") else .error TypedData.refused := by
  refine TypedData.encodeType_single areBasic_requestMembers ?_
  rw [TypedData.typeText, TypedData.lookup_single_self]
  rfl

/-! ## Domains -/

theorem layout_eq {fields : List Field} {bs : Bytes}
    (h : Abi.encode (fields.map Prod.fst) (fields.map Prod.snd) = .ok bs) :
    TypedData.layout fields = .ok bs := by
  rw [TypedData.layout, h]
  rfl

theorem field_address {name : String} {members : List Member} (h : "address" ≠ name) (s : String) :
    TypedData.field (single name members) "address" (.text s) = .ok (.address, .text s) :=
  TypedData.field_of_plain (.inl ⟨s, rfl⟩) (TypedData.lookup_single_of_ne h) rfl

theorem field_uint256 {name : String} {members : List Member} (h : "uint256" ≠ name) (n : Int) :
    TypedData.field (single name members) "uint256" (.int n) = .ok (.uint 256, .int n) :=
  TypedData.field_of_plain (.inr ⟨n, rfl⟩) (TypedData.lookup_single_of_ne h) rfl

theorem field_string {name : String} {members : List Member} (h : "string" ≠ name) (s : String) :
    TypedData.field (single name members) "string" (.text s) = .ok (hashField (keccakText s)) :=
  TypedData.field_of_plain (.inl ⟨s, rfl⟩) (TypedData.lookup_single_of_ne h) rfl

theorem field_bytes {name : String} {members : List Member} (h : "bytes" ≠ name) (bs : Bytes) :
    TypedData.field (single name members) "bytes" (.text (Hex.render bs)) =
      .ok (hashField (keccak bs)) :=
  (TypedData.field_of_plain (.inl ⟨_, rfl⟩) (TypedData.lookup_single_of_ne h) rfl).trans
    (TypedData.basicField_bytes bs)

/-- The hash of a domain by the rules for typed data. -/
theorem domainHash_view {d : Domain} (h : d.IsChecked) {contract : Bytes}
    (hlen : contract.length = Address.width) (hcontract : d.contract = Address.render contract) :
    TypedData.domainHash d.view =
      .ok (keccak (domainLayout d.name d.version d.chainId contract)) := by
  have hfields : List.Forall₂ (fun (m : Member) f => ∃ key v, m.name? = some (.text key) ∧
      Value.get? key d.view = some v ∧
        TypedData.field (single TypedData.domainType (schemaMembers domainMembers)) m.type v = .ok f)
      (schemaMembers domainMembers)
      [hashField (keccakText d.name), hashField (keccakText d.version), (.uint 256, .int d.chainId),
        (.address, .text d.contract)] :=
    .cons ⟨"name", _, rfl, rfl, field_string (by decide) _⟩ <|
    .cons ⟨"version", _, rfl, rfl, field_string (by decide) _⟩ <|
    .cons ⟨"chainId", _, rfl, rfl, field_uint256 (by decide) _⟩ <|
    .cons ⟨"verifyingContract", _, rfl, rfl, field_address (by decide) _⟩ .nil
  have hlayout := encode_domain h (Abi.part_address_render hlen)
  rw [← hcontract] at hlayout
  exact TypedData.structHash_eq TypedData.lookup_single_self encodeType_domain hfields
    (layout_eq hlayout)

/-! ## Requests -/

/-- The hash of a request by the rules for typed data. -/
theorem structHash_message {r : Request} (h : r.IsChecked) (hname : IsViewable r.typeName)
    {sender recipient : Bytes} (hslen : sender.length = Address.width)
    (hsender : r.sender = Address.render sender) (hrlen : recipient.length = Address.width)
    (hrecipient : r.recipient = Address.render recipient) :
    TypedData.structHash (single r.typeName (schemaMembers requestMembers)) r.typeName
        (.map r.message) =
      .ok (keccak (requestLayout (requestTypeHash r.typeName "") sender recipient r.value r.gas
        r.nonce r.data r.expiry)) := by
  have haddress : "address" ≠ r.typeName := (hname.fields ("from", "address") (by decide)).symm
  have huint : "uint256" ≠ r.typeName := (hname.fields ("value", "uint256") (by decide)).symm
  have hbytes : "bytes" ≠ r.typeName := (hname.fields ("data", "bytes") (by decide)).symm
  have htext : TypedData.encodeType (single r.typeName (schemaMembers requestMembers)) r.typeName =
      .ok (requestType r.typeName "") := by
    rw [encodeType_request, if_pos hname.selfContained]
  have hfields : List.Forall₂ (fun (m : Member) f => ∃ key v, m.name? = some (.text key) ∧
      Value.get? key r.message = some v ∧
        TypedData.field (single r.typeName (schemaMembers requestMembers)) m.type v = .ok f)
      (schemaMembers requestMembers)
      [(.address, .text r.sender), (.address, .text r.recipient), (.uint 256, .int r.value),
        (.uint 256, .int r.gas), (.uint 256, .int r.nonce), hashField (keccak r.data),
        (.uint 256, .int r.expiry)] :=
    .cons ⟨"from", _, rfl, rfl, field_address haddress _⟩ <|
    .cons ⟨"to", _, rfl, rfl, field_address haddress _⟩ <|
    .cons ⟨"value", _, rfl, rfl, field_uint256 huint _⟩ <|
    .cons ⟨"gas", _, rfl, rfl, field_uint256 huint _⟩ <|
    .cons ⟨"nonce", _, rfl, rfl, field_uint256 huint _⟩ <|
    .cons ⟨"data", _, rfl, rfl, field_bytes hbytes _⟩ <|
    .cons ⟨"validUntilTime", _, rfl, rfl, field_uint256 huint _⟩ .nil
  have hlayout := encode_request h (length_keccakText (requestType r.typeName ""))
    (Abi.part_address_render hslen) (Abi.part_address_render hrlen)
  rw [← hsender, ← hrecipient] at hlayout
  exact TypedData.structHash_eq TypedData.lookup_single_self htext hfields (layout_eq hlayout)

theorem exists_plain_of_mem (r : Request) {member : String × String}
    (h : member ∈ requestMembers) :
    ∃ v, Value.get? member.1 r.message = some v ∧ TypedData.IsPlain v := by
  simp only [requestMembers, List.mem_cons, List.not_mem_nil, or_false] at h
  rcases h with rfl | rfl | rfl | rfl | rfl | rfl | rfl
  · exact ⟨.text r.sender, rfl, .inl ⟨_, rfl⟩⟩
  · exact ⟨.text r.recipient, rfl, .inl ⟨_, rfl⟩⟩
  · exact ⟨.int r.value, rfl, .inr ⟨_, rfl⟩⟩
  · exact ⟨.int r.gas, rfl, .inr ⟨_, rfl⟩⟩
  · exact ⟨.int r.nonce, rfl, .inr ⟨_, rfl⟩⟩
  · exact ⟨.text (Hex.render r.data), rfl, .inl ⟨_, rfl⟩⟩
  · exact ⟨.int r.expiry, rfl, .inr ⟨_, rfl⟩⟩

/-- A message that is hashed has a type under a name that nothing else goes by. -/
theorem isViewable_of_structHash {r : Request} {hash : Bytes}
    (hdomain : r.typeName ≠ TypedData.domainType)
    (h : TypedData.structHash (single r.typeName (schemaMembers requestMembers)) r.typeName
      (.map r.message) = .ok hash) : IsViewable r.typeName := by
  obtain ⟨⟨text, htext⟩, hfields⟩ :=
    TypedData.exists_of_structHash TypedData.lookup_single_self h
  refine ⟨hdomain, fun member hmember hname => ?_, ?_⟩
  -- A field whose basic type goes by this name would be a message of the type itself.
  · obtain ⟨v, hv, hplain⟩ := exists_plain_of_mem r hmember
    obtain ⟨f, hf⟩ := hfields ⟨some (.text member.1), member.2⟩
      (List.mem_map.mpr ⟨member, hmember, rfl⟩) member.1 v rfl hv
    rw [← hname] at hf
    exact TypedData.field_of_plain_ne_ok hplain TypedData.lookup_single_self f hf
  · rw [encodeType_request] at htext
    split at htext
    · next hname => exact hname
    · cases htext

end Relay

/-! ## Payloads -/

namespace RelayTx

open Relay

variable {tx : RelayTx}

/-- The payload of a relay transaction without a suffix. -/
def payload (tx : RelayTx) : List (String × Value) := [
  ("types", .map (putEntry tx.request.typeName (definition requestMembers)
    [("EIP712Domain", definition domainMembers)])),
  ("primaryType", .text tx.request.typeName), ("domain", .map tx.domain.view),
  ("message", .map tx.request.message)]

theorem primaryType_single (name : String) (members : List Member) :
    TypedData.primaryType (single name members) = .ok name := by
  simp [TypedData.primaryType, single]

theorem typedData_eq (h : tx.request.typeSuffix = "") : tx.typedData = .ok tx.payload := by
  rw [typedData, h]
  rfl

theorem preimage_payload_of_domainType (h : tx.request.typeName = TypedData.domainType) :
    TypedData.preimage tx.payload = .error (.fault .typeMismatch) := by
  rw [payload, h]
  rfl

theorem preimage_payload (h : tx.request.typeName ≠ TypedData.domainType) :
    TypedData.preimage tx.payload = do
      let domain ← TypedData.domainHash tx.domain.view
      return Message.structured domain (← TypedData.structHash
        (single tx.request.typeName (schemaMembers requestMembers)) tx.request.typeName
        (.map tx.request.message)) := by
  have hput : putEntry tx.request.typeName (definition requestMembers)
      [(TypedData.domainType, definition domainMembers)] =
      [(TypedData.domainType, definition domainMembers),
        (tx.request.typeName, definition requestMembers)] := by
    rw [putEntry, if_neg h.symm]
    rfl
  have htypes : TypedData.require "types" tx.payload = .ok (.map
      [(TypedData.domainType, definition domainMembers),
        (tx.request.typeName, definition requestMembers)]) :=
    congrArg (fun types => Except.ok (Value.map types)) hput
  have hrest : [(TypedData.domainType, definition domainMembers),
      (tx.request.typeName, definition requestMembers)].filter
        (fun entry => entry.1 != TypedData.domainType) =
      [(tx.request.typeName, definition requestMembers)] := by
    simp [h]
  have hschema : TypedData.readSchema [(tx.request.typeName, definition requestMembers)] =
      .ok (single tx.request.typeName (schemaMembers requestMembers)) :=
    Except.mapM_eq_ok_iff.mpr (.cons rfl .nil)
  have hprimary := primaryType_single tx.request.typeName (schemaMembers requestMembers)
  rw [← hrest] at hschema
  exact TypedData.preimage_eq htypes rfl rfl rfl rfl hschema hprimary rfl rfl

/-- The digest by the rules for typed data is the one that the sender signs. -/
theorem digest_payload (h : tx.IsChecked) (hsuffix : tx.request.typeSuffix = "")
    (hname : IsViewable tx.request.typeName) :
    ∃ digest, TypedData.digest tx.payload = .ok digest ∧ tx.digest = .ok digest := by
  obtain ⟨contract, hclen, hcontract⟩ := h.domain.contract
  obtain ⟨sender, hslen, hsender⟩ := h.request.sender
  obtain ⟨recipient, hrlen, hrecipient⟩ := h.request.recipient
  have hdomain := domainHash_view h.domain hclen hcontract
  have hcontent := structHash_message h.request hname hslen hsender hrlen hrecipient
  have hdigest := digest_eq (domainSeparator_eq h hclen hcontract)
    (structHash_eq h hslen hsender hrlen hrecipient)
  have hempty : tx.request.suffixBytes = [] := by
    rw [Request.suffixBytes, hsuffix]
    rfl
  rw [hempty, List.append_nil, requestTypeHash, hsuffix] at hdigest
  refine ⟨_, ?_, hdigest⟩
  rw [TypedData.digest, preimage_payload hname.domain, hdomain, Except.ok_bind, hcontent]
  rfl

/-- The rules for typed data come to a digest under no other names. -/
theorem isViewable_of_digest {digest : Bytes} (h : TypedData.digest tx.payload = .ok digest) :
    IsViewable tx.request.typeName := by
  obtain ⟨bs, hbs, -⟩ := Except.bind_eq_ok_iff.mp h
  by_cases hdomain : tx.request.typeName = TypedData.domainType
  · rw [preimage_payload_of_domainType hdomain] at hbs
    cases hbs
  · rw [preimage_payload hdomain] at hbs
    obtain ⟨domain, -, hbs⟩ := Except.bind_eq_ok_iff.mp hbs
    obtain ⟨hash, hhash, -⟩ := Except.bind_eq_ok_iff.mp hbs
    exact isViewable_of_structHash hdomain hhash

end RelayTx

/-! ## The result -/

namespace RelayBuilder

/-- **Typed data agrees with direct hashing.** A built relay transaction without a suffix has a
payload of typed data, and whenever the rules for typed data come to a digest of it, the digest is
the one that the sender signs. -/
theorem digest_eq_of_typedData {b : RelayBuilder} {tx : RelayTx} (h : b.build = .ok tx)
    (hsuffix : tx.request.typeSuffix = "") :
    ∃ payload, tx.typedData = .ok payload ∧
      ∀ digest, TypedData.digest payload = .ok digest → tx.digest = .ok digest := by
  refine ⟨tx.payload, RelayTx.typedData_eq hsuffix, fun digest hdigest => ?_⟩
  obtain ⟨digest', hdigest', htx⟩ :=
    RelayTx.digest_payload (isChecked_of_build h) hsuffix (RelayTx.isViewable_of_digest hdigest)
  rw [hdigest] at hdigest'
  rw [htx, Except.ok.inj hdigest']

theorem digest_eq_of_typedData_sample :
    ∃ payload digest, RelayTx.sample.typedData = .ok payload ∧
      TypedData.digest payload = .ok digest ∧ RelayTx.sample.digest = .ok digest := by
  have hname : Relay.IsViewable RelayTx.sample.request.typeName :=
    ⟨by decide, by decide, rfl⟩
  obtain ⟨digest, hdigest, -⟩ :=
    RelayTx.digest_payload (isChecked_of_build build_sample) rfl hname
  obtain ⟨payload, hpayload, hagrees⟩ := digest_eq_of_typedData build_sample rfl
  obtain rfl : RelayTx.sample.payload = payload :=
    Except.ok.inj ((RelayTx.typedData_eq rfl).symm.trans hpayload)
  exact ⟨_, digest, hpayload, hdigest, hagrees digest hdigest⟩

end RelayBuilder

end MetaTx
