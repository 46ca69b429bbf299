import MetaTx.Proofs.Relay.Layout

/-!
# A digest binds its relay transaction

Two relay transactions with one digest are equal, unless the hash collides on something that
both of them hash in the same place. The text of a type does not tell where the name ends and
the suffix starts. The layout of the request does: its words have a fixed width, and the suffix
is what follows them. Of the expiry only its number is hashed, and that number tells whether
there is one, because the largest number is no time of expiry.
-/

namespace MetaTx

attribute [ext] Relay.Domain Relay.Request RelayTx

/-! ## Layouts and texts determine what they are made of -/

theorem Abi.numberWord_toNat_inj {m n : Int} (hm : Field.IsUint256 m) (hn : Field.IsUint256 n)
    (h : numberWord m.toNat = numberWord n.toNat) : m = n := by
  obtain ⟨hm0, hm⟩ := hm
  obtain ⟨hn0, hn⟩ := hn
  have hmlt : m.toNat < Bytes.limit wordWidth := by
    change m.toNat < Bytes.limit 32
    omega
  have hnlt : n.toNat < Bytes.limit wordWidth := by
    change n.toNat < Bytes.limit 32
    omega
  have heq : m.toNat = n.toNat := Bytes.ofNat_inj hmlt hnlt h
  omega

theorem Bytes.padLeft_inj {width : Nat} {a b : Bytes} (hlen : a.length = b.length)
    (h : padLeft width a = padLeft width b) : a = b :=
  (List.append_inj' h hlen).2

namespace Relay

theorem length_requestLayout {typeHash sender recipient : Bytes} {value gas nonce : Int}
    {data : Bytes} {validUntil : Int} (htype : typeHash.length = Abi.wordWidth)
    (hsender : sender.length = Address.width) (hrecipient : recipient.length = Address.width) :
    (requestLayout typeHash sender recipient value gas nonce data validUntil).length =
      8 * Abi.wordWidth := by
  have hs : sender.length ≤ Abi.wordWidth := by rw [hsender]; decide
  have hr : recipient.length ≤ Abi.wordWidth := by rw [hrecipient]; decide
  simp only [requestLayout, List.length_append, htype, Abi.length_padLeft hs, Abi.length_padLeft hr,
    Abi.length_numberWord, length_keccak]
  rfl

/-- Equal words of domains are equal names, versions, chains and contracts, up to the hash. -/
theorem domainLayout_inj {name name' version version' : String} {chainId chainId' : Int}
    {contract contract' : Bytes} (hchain : Field.IsUint256 chainId)
    (hchain' : Field.IsUint256 chainId') (hlen : contract.length = contract'.length)
    (h : domainLayout name version chainId contract =
      domainLayout name' version' chainId' contract') :
    keccakText name = keccakText name' ∧ keccakText version = keccakText version' ∧
      chainId = chainId' ∧ contract = contract' := by
  unfold domainLayout at h
  obtain ⟨h, hcontract⟩ := List.append_inj' h (by simp [Bytes.padLeft, hlen])
  obtain ⟨h, hnumber⟩ := List.append_inj' h (by simp)
  obtain ⟨h, hversion⟩ := List.append_inj' h (by simp [length_keccakText])
  obtain ⟨-, hname⟩ := List.append_inj' h (by simp [length_keccakText])
  exact ⟨hname, hversion, Abi.numberWord_toNat_inj hchain hchain' hnumber,
    Bytes.padLeft_inj hlen hcontract⟩

/-- Equal words of requests are equal fields, up to the hashes of the type and the data. -/
theorem requestLayout_inj {q r : Request} (hq : q.IsChecked) (hr : r.IsChecked)
    {typeHash typeHash' sender sender' recipient recipient' : Bytes}
    (htype : typeHash.length = typeHash'.length) (hsender : sender.length = sender'.length)
    (hrecipient : recipient.length = recipient'.length)
    (h : requestLayout typeHash sender recipient q.value q.gas q.nonce q.data q.expiry =
      requestLayout typeHash' sender' recipient' r.value r.gas r.nonce r.data r.expiry) :
    typeHash = typeHash' ∧ sender = sender' ∧ recipient = recipient' ∧ q.value = r.value ∧
      q.gas = r.gas ∧ q.nonce = r.nonce ∧ keccak q.data = keccak r.data ∧
        q.expiry = r.expiry := by
  unfold requestLayout at h
  obtain ⟨h, hexpiry⟩ := List.append_inj' h (by simp)
  obtain ⟨h, hdata⟩ := List.append_inj' h (by simp [length_keccak])
  obtain ⟨h, hnonce⟩ := List.append_inj' h (by simp)
  obtain ⟨h, hgas⟩ := List.append_inj' h (by simp)
  obtain ⟨h, hvalue⟩ := List.append_inj' h (by simp)
  obtain ⟨h, hto⟩ := List.append_inj' h (by simp [Bytes.padLeft, hrecipient])
  obtain ⟨hhash, hfrom⟩ := List.append_inj h htype
  exact ⟨hhash, Bytes.padLeft_inj hsender hfrom, Bytes.padLeft_inj hrecipient hto,
    Abi.numberWord_toNat_inj hq.value hr.value hvalue, Abi.numberWord_toNat_inj hq.gas hr.gas hgas,
    Abi.numberWord_toNat_inj hq.nonce hr.nonce hnonce, hdata,
    Abi.numberWord_toNat_inj hq.isUint256_expiry hr.isUint256_expiry hexpiry⟩

/-- The name of a type is what is left of its text without its fields and suffix. -/
theorem requestType_inj {name name' suffix : String}
    (h : requestType name suffix = requestType name' suffix) : name = name' := by
  unfold requestType at h
  have hlist := congrArg String.toList h
  apply String.toList_inj.mp
  split at hlist
  all_goals
    simp only [String.toList_append, List.append_assoc] at hlist
    exact List.append_cancel_right hlist

end Relay

namespace RelayTx

open Relay

/-! ## What is hashed -/

/-- Where a digest hashes a byte string. -/
inductive HashPlace
  | name
  | version
  | domain
  | requestType
  | data
  | request
  | digest

/-- A relay transaction hashes a byte string in a place. -/
inductive Hashes (tx : RelayTx) : HashPlace → Bytes → Prop
  | name : Hashes tx .name (Bytes.ofText tx.domain.name)
  | version : Hashes tx .version (Bytes.ofText tx.domain.version)
  | domain {layout : Bytes} (h : encodeDomain (.text tx.domain.name) (.text tx.domain.version)
      (.int tx.domain.chainId) (.text tx.domain.contract) = .ok layout) :
      Hashes tx .domain layout
  | requestType : Hashes tx .requestType (Bytes.ofText tx.requestType)
  | data : Hashes tx .data tx.request.data
  | request {layout : Bytes}
      (h : encodeRequest (.bytes tx.requestTypeHash) tx.request.fields = .ok layout) :
      Hashes tx .request (layout ++ tx.request.suffixBytes)
  | digest {domain content : Bytes} (hdomain : tx.domainSeparator = .ok domain)
      (hcontent : tx.structHash = .ok content) :
      Hashes tx .digest (Message.structured domain content)

/-- The hash has no collision between what two relay transactions hash in the same place. -/
def CollisionFree (a b : RelayTx) : Prop :=
  ∀ place x y, a.Hashes place x → b.Hashes place y → keccak x = keccak y → x = y

theorem CollisionFree.refl (tx : RelayTx) : CollisionFree tx tx := by
  intro place x y hx hy _
  cases hx <;> cases hy <;> simp_all

/-! ## From hashes to what is hashed -/

variable {a b : RelayTx}

/-- One digest is made of one hash of a domain and one of a request. -/
theorem hashes_eq_of_digest_eq (ha : a.IsChecked) (hb : b.IsChecked) (hfree : CollisionFree a b)
    (h : a.digest = b.digest) :
    a.domainSeparator = b.domainSeparator ∧ a.structHash = b.structHash := by
  obtain ⟨da, hda, hdalen⟩ := ha.exists_domain
  obtain ⟨db, hdb, hdblen⟩ := hb.exists_domain
  obtain ⟨ca, hca, -⟩ := ha.exists_content
  obtain ⟨cb, hcb, -⟩ := hb.exists_content
  rw [digest_eq hda hca, digest_eq hdb hcb] at h
  have hpre := hfree .digest _ _ (.digest hda hca) (.digest hdb hcb) (Except.ok.inj h)
  simp only [Message.structured, List.append_assoc] at hpre
  obtain ⟨rfl, rfl⟩ := List.append_inj (List.append_cancel_left hpre) (hdalen.trans hdblen.symm)
  exact ⟨hda.trans hdb.symm, hca.trans hcb.symm⟩

theorem domain_eq_of_separator_eq (ha : a.IsChecked) (hb : b.IsChecked)
    (hfree : CollisionFree a b) (h : a.domainSeparator = b.domainSeparator) :
    a.domain = b.domain := by
  obtain ⟨ka, hkalen, hka⟩ := ha.domain.contract
  obtain ⟨kb, hkblen, hkb⟩ := hb.domain.contract
  rw [domainSeparator_eq ha hkalen hka, domainSeparator_eq hb hkblen hkb] at h
  have hlayout := hfree .domain _ _ (.domain (encodeDomain_eq ha.domain hkalen hka))
    (.domain (encodeDomain_eq hb.domain hkblen hkb)) (Except.ok.inj h)
  obtain ⟨hname, hversion, hchain, rfl⟩ := domainLayout_inj ha.domain.chainId
    hb.domain.chainId (hkalen.trans hkblen.symm) hlayout
  have hname := Bytes.ofText_inj (hfree .name _ _ .name .name hname)
  have hversion := Bytes.ofText_inj (hfree .version _ _ .version .version hversion)
  exact Domain.ext hname hversion hchain (hka.trans hkb.symm)

theorem request_eq_of_structHash_eq (ha : a.IsChecked) (hb : b.IsChecked)
    (hfree : CollisionFree a b) (h : a.structHash = b.structHash) : a.request = b.request := by
  obtain ⟨sa, hsalen, hsa⟩ := ha.request.sender
  obtain ⟨sb, hsblen, hsb⟩ := hb.request.sender
  obtain ⟨ra, hralen, hra⟩ := ha.request.recipient
  obtain ⟨rb, hrblen, hrb⟩ := hb.request.recipient
  have hatype : a.requestTypeHash.length = Abi.wordWidth := length_keccakText a.requestType
  have hbtype : b.requestTypeHash.length = Abi.wordWidth := length_keccakText b.requestType
  rw [structHash_eq ha hsalen hsa hralen hra, structHash_eq hb hsblen hsb hrblen hrb] at h
  have hlayout := hfree .request _ _
    (.request (encodeRequest_eq ha.request hatype hsalen hsa hralen hra))
    (.request (encodeRequest_eq hb.request hbtype hsblen hsb hrblen hrb)) (Except.ok.inj h)
  -- The words have a fixed width, so the suffix is what stands behind them.
  obtain ⟨hwords, hsuffix⟩ := List.append_inj hlayout
    ((length_requestLayout hatype hsalen hralen).trans
      (length_requestLayout hbtype hsblen hrblen).symm)
  obtain ⟨htypeHash, rfl, rfl, hvalue, hgas, hnonce, hdata, hexpiry⟩ :=
    requestLayout_inj ha.request hb.request (hatype.trans hbtype.symm)
      (hsalen.trans hsblen.symm) (hralen.trans hrblen.symm) hwords
  have hsuffix := Bytes.ofText_inj hsuffix
  have htype := Bytes.ofText_inj (hfree .requestType _ _ .requestType .requestType htypeHash)
  have hdata := hfree .data _ _ .data .data hdata
  obtain ⟨htime, hno⟩ := ha.request.eq_of_expiry_eq hb.request hexpiry
  rw [RelayTx.requestType, RelayTx.requestType, hsuffix] at htype
  exact Request.ext (hsa.trans hsb.symm) (hra.trans hrb.symm) hvalue hgas hnonce hdata htime hno
    (requestType_inj htype) hsuffix

/-- **A digest binds every field.** -/
theorem eq_of_digest_eq {builder builder' : RelayBuilder} (ha : builder.build = .ok a)
    (hb : builder'.build = .ok b) (hfree : CollisionFree a b) (h : a.digest = b.digest) :
    a = b := by
  have hac := RelayBuilder.isChecked_of_build ha
  have hbc := RelayBuilder.isChecked_of_build hb
  obtain ⟨hdomain, hcontent⟩ := hashes_eq_of_digest_eq hac hbc hfree h
  have hd := domain_eq_of_separator_eq hac hbc hfree hdomain
  have hr := request_eq_of_structHash_eq hac hbc hfree hcontent
  exact RelayTx.ext hd hr

/-- Two builders that record a value in different ways make one relay transaction. -/
theorem sample_eq_of_digest_eq :
    RelayBuilder.sample.build = .ok sample ∧
      (RelayBuilder.sample.set .value (.bool false)).build = .ok sample ∧
      CollisionFree sample sample ∧ sample = sample :=
  ⟨RelayBuilder.build_sample, RelayBuilder.build_sample_set_value, CollisionFree.refl sample,
    eq_of_digest_eq RelayBuilder.build_sample RelayBuilder.build_sample_set_value
      (CollisionFree.refl sample) rfl⟩

end RelayTx

end MetaTx
