import MetaTx.Proofs.Relay.Execution
import MetaTx.Proofs.Relay.Recording
import MetaTx.Proofs.Text.Integer

/-!
# What a relay server can rebuild

A relay server is given the payload and nothing else. It knows the names of the entries, which of
them spell numbers and which bytes, and the generic members of every type of requests. From that it
makes the call of the forwarder again, and a builder that it feeds builds the relay transaction
again.
-/

namespace MetaTx

open Abi (wordWidth)

/-! ## The relay server -/

namespace Relay.Payload

open RelayBuilder (Setting)

/-- The text under a name. -/
def text? (key : String) (entries : List (String × Value)) : Option String :=
  match Value.get? key entries with
  | some (.text s) => some s
  | _ => none

/-- The entries of the mapping under a name. -/
def map? (key : String) (entries : List (String × Value)) : Option (List (String × Value)) :=
  match Value.get? key entries with
  | some (.map inner) => some inner
  | _ => none

/-- The bytes whose digits stand under a name. -/
def bytes? (key : String) (entries : List (String × Value)) : Option Bytes :=
  (text? key entries).bind fun s => (Hex.decode (Hex.dropMark s).toList).toOption

/-- The number whose digits stand under a name. -/
def number? (key : String) (entries : List (String × Value)) : Option Int :=
  (text? key entries).bind fun s => (Text.readStrictInt s).toOption

/-- The data of the call of the forwarder, from what is listed. -/
def callData? (payload : List (String × Value)) : Option Bytes := do
  let request ← map? "request" payload
  let fields := [
    .text (← text? "from" request), .text (← text? "to" request), .int (← number? "value" request),
    .int (← number? "gas" request), .int (← number? "nonce" request),
    .bytes (← bytes? "data" request), .int (← number? "validUntilTime" request)]
  let encoded ← (Abi.encode Execution.types [
    .list fields, .bytes (← bytes? "domainSeparator" payload),
    .bytes (← bytes? "requestTypeHash" payload), .bytes (← bytes? "suffixData" payload),
    .bytes (← bytes? "signature" payload)]).toOption
  return executeSelector ++ encoded

/-- What remains of a type in front of the generic members and a suffix. -/
def typeName? (type suffix : String) : Option String :=
  let whole := type.toList
  let generic := (requestType "" suffix).toList
  if generic <:+ whole then some (String.ofList (whole.take (whole.length - generic.length)))
  else none

/-- How a builder is told the listed expiry, of which the largest number means that there is
none. -/
def expirySetting (time : Int) (listed : Value) : Setting :=
  if time = Field.Reader.maxUint256 then .noExpiry else .set .validUntil listed

/-- The calls of a builder that feed it what is listed. Only the suffix and the name of the type are
made of something else first. -/
def settings? (payload : List (String × Value)) : Option (List Setting) := do
  let domain ← map? "domain" payload
  let request ← map? "request" payload
  let suffix ← (bytes? "suffixData" payload).bind Bytes.toText?
  let name ← typeName? (← text? "requestType" payload) suffix
  let time ← number? "validUntilTime" request
  return [
    .set .domainName (← Value.get? "name" domain),
    .set .domainVersion (← Value.get? "version" domain),
    .set .domainChainId (← Value.get? "chainId" domain),
    .set .domainContract (← Value.get? "verifyingContract" domain),
    .set .sender (← Value.get? "from" request), .set .recipient (← Value.get? "to" request),
    .set .value (← Value.get? "value" request), .set .gas (← Value.get? "gas" request),
    .set .nonce (← Value.get? "nonce" request), .set .data (← Value.get? "data" request),
    .set .typeName (.text name), .set .typeSuffix (.text suffix),
    expirySetting time (← Value.get? "validUntilTime" request)]

/-! ### Types -/

theorem requestType_eq_append (name suffix : String) :
    requestType name suffix = name ++ requestType "" suffix := by
  unfold requestType
  split
  · simp [String.append_assoc]
  · simp [String.append_assoc]

theorem typeName?_requestType (name suffix : String) :
    typeName? (requestType name suffix) suffix = some name := by
  have hwhole : (requestType name suffix).toList =
      name.toList ++ (requestType "" suffix).toList := by
    rw [requestType_eq_append, String.toList_append]
  have hname : (name.toList ++ (requestType "" suffix).toList).take
      ((name.toList ++ (requestType "" suffix).toList).length -
        (requestType "" suffix).toList.length) = name.toList := by
    rw [List.length_append, Nat.add_sub_cancel, List.take_left]
  unfold typeName?
  rw [hwhole, if_pos (List.suffix_append _ _), hname, String.ofList_toList]

end Relay.Payload

/-! ## Listed values are accepted again -/

namespace Field

theorem toString_of_nonneg {n : Int} (h : 0 ≤ n) : toString n = toString n.toNat := by
  obtain ⟨m, rfl⟩ := Int.eq_ofNat_of_zero_le h
  rfl

/-- Numbers of 256 bits have fewer digits than a reader takes. -/
theorem limit_lt_maxDigits : Bytes.limit 32 < 10 ^ Text.maxDigits := by
  have hsmall : Bytes.limit 32 < 10 ^ 78 := by decide
  exact Nat.lt_of_lt_of_le hsmall (Nat.pow_le_pow_right (by decide) (by decide))

theorem readStrictInt_of_isUint256 {n : Int} (h : IsUint256 n) :
    Text.readStrictInt (toString n) = .ok n := by
  have hlt : n.toNat < 10 ^ Text.maxDigits := by
    have hlimit := limit_lt_maxDigits
    have hn := h.2
    omega
  rw [toString_of_nonneg h.1, Text.readStrictInt_toString hlt, Int.toNat_of_nonneg h.1]

theorem uint256_int {n : Int} (h : IsUint256 n) : Reader.uint256 (.int n) = .ok n := by
  have hlow : ¬n < 0 := by
    have := h.1
    omega
  have hhigh : ¬Reader.maxUint256 < n := by
    have := h.2
    unfold Reader.maxUint256
    omega
  simp only [Reader.uint256, Reader.int, if_neg hlow, if_neg hhigh]

theorem uint256_text {n : Int} (h : IsUint256 n) :
    Reader.uint256 (.text (toString n)) = .ok n := by
  have hint := uint256_int h
  simp only [Reader.uint256, Reader.int] at hint
  simp only [Reader.uint256, Reader.int, Reader.spelledInt, readStrictInt_of_isUint256 h, hint]

theorem bytes_text_render (bs : Bytes) : Reader.bytes (.text (Hex.render bs)) = .ok bs := by
  simp only [Reader.bytes, Hex.decode_render]

theorem someText_text {s : String} (h : s ≠ "") : Reader.someText (.text s) = .ok s := by
  simp only [Reader.someText, Reader.text, if_neg h]

variable {α : Type} {read : Reader α} {name : String} {entries : List (String × Value)} {v : Value}
  {a : α}

theorem given_of_eq_ok (h : read v = .ok a) : given read name v = .ok a := by
  rw [given, h]

theorem required_of_get? (hv : Value.get? name entries = some v) (h : read v = .ok a) :
    required read name entries = .ok a := by
  rw [required, hv]
  exact given_of_eq_ok h

theorem optional_of_get? {default : α} (hv : Value.get? name entries = some v)
    (h : read v = .ok a) : optional read default name entries = .ok a := by
  rw [optional, hv]
  exact given_of_eq_ok h

end Field

namespace Relay

open MetaTx.Field

theorem addressReader_of_isNormal {s : String} (h : Address.IsNormal s) :
    addressReader (.text s) = .ok s := by
  obtain ⟨bs, hlen, rfl⟩ := h
  have hsame : (Address.isMixed (Address.render bs) && Address.render bs != Address.render bs) =
      false := by
    rw [bne_self_eq_false, Bool.and_false]
  simp only [addressReader, Address.normal, Address.ofText?_render hlen, hsame]
  rfl

/-- The entries of a builder that was fed a domain. -/
def Domain.listed (d : Domain) : List (String × Value) := [
  ("name", .text d.name), ("version", .text d.version), ("chain_id", .int d.chainId),
  ("verifying_contract", .text d.contract)]

theorem Domain.check_listed {d : Domain} (h : d.IsChecked) : check d.listed = .ok d :=
  check_eq_ok_iff.mpr {
    name := required_of_get? rfl rfl
    version := required_of_get? rfl rfl
    chainId := required_of_get? rfl (uint256_int h.chainId)
    contract := required_of_get? rfl (addressReader_of_isNormal h.contract) }

/-- The entries of a builder that was fed a request as a relay server is shown it, with the entry of
its expiry last. -/
def Request.listed (r : Request) (expiry : String × Value) : List (String × Value) := [
  ("from_", .text r.sender), ("to", .text r.recipient), ("value", .text (toString r.value)),
  ("gas", .text (toString r.gas)), ("nonce", .text (toString r.nonce)),
  ("data", .text (Hex.render r.data)), ("type_name", .text r.typeName),
  ("type_suffix_data", .text r.typeSuffix), expiry]

/-- A listed request is read as itself, if the entry that stands last gives back the expiry. -/
theorem Request.check_listed {r : Request} (h : r.IsChecked) {expiry : String × Value}
    (hfrom : Value.get? "from" (r.listed expiry) = none)
    (hvalid : optional (Reader.orNothing Reader.uint256) none "valid_until_time"
      (r.listed expiry) = .ok r.validUntil?)
    (hno : optional Reader.bool false "no_expiry" (r.listed expiry) = .ok r.noExpiry) :
    check (r.listed expiry) = .ok r := by
  have hsender : checkSender (r.listed expiry) = .ok r.sender := by
    rw [checkSender, hfrom]
    exact given_of_eq_ok (addressReader_of_isNormal h.sender)
  exact check_of_isRead {
    sender := hsender
    recipient := required_of_get? rfl (addressReader_of_isNormal h.recipient)
    value := optional_of_get? rfl (uint256_text h.value)
    gas := required_of_get? rfl (uint256_text h.gas)
    nonce := required_of_get? rfl (uint256_text h.nonce)
    data := optional_of_get? rfl (bytes_text_render r.data)
    validUntil := hvalid
    noExpiry := hno
    typeName := required_of_get? rfl (someText_text h.typeName)
    typeSuffix := optional_of_get? rfl rfl } h.expiryRule

namespace Payload

theorem bytes?_of_text? {key : String} {entries : List (String × Value)} {bs : Bytes}
    (h : text? key entries = some (Hex.render bs)) : bytes? key entries = some bs := by
  rw [bytes?, h, Option.bind_some, Hex.decode_render]
  rfl

theorem number?_of_text? {key : String} {entries : List (String × Value)} {n : Int}
    (h : text? key entries = some (toString n)) (hn : Field.IsUint256 n) :
    number? key entries = some n := by
  rw [number?, h, Option.bind_some, Field.readStrictInt_of_isUint256 hn]
  rfl

end Payload

end Relay

/-! ## The payload -/

namespace SignedRelayTx

open Relay Relay.Payload
open RelayBuilder (Setting recorded)

variable {tx : RelayTx} {sig : Signature}

/-- The payload by the hash of the domain and the bytes of the signature. -/
def listing (tx : RelayTx) (domain signature : Bytes) : List (String × Value) := [
  ("forwarder", .text tx.forwarder), ("domain", .map tx.domain.view),
  ("domainSeparator", .text (Hex.render domain)), ("requestType", .text tx.requestType),
  ("requestTypeHash", .text (Hex.render tx.requestTypeHash)), ("request", .map tx.request.view),
  ("suffixData", .text (Hex.render tx.request.suffixBytes)),
  ("signature", .text (Hex.render signature))]

theorem payload_eq {domain : Bytes} (hdomain : tx.domainSeparator = .ok domain)
    (hsig : sig.IsSized) :
    (SignedRelayTx.mk tx sig).payload = .ok (listing tx domain sig.layout) := by
  simp only [payload, hdomain, Signature.toBytes_eq hsig]
  rfl

/-- What is listed lays out as the arguments of the call do. -/
theorem callData?_listing (h : tx.IsChecked) {domain signature encoded : Bytes}
    (hencoded : Abi.encode executeAbi [.list tx.request.asTuple, .bytes domain,
      .bytes tx.requestTypeHash, .bytes tx.request.suffixBytes, .bytes signature] = .ok encoded) :
    callData? (listing tx domain signature) = some (executeSelector ++ encoded) := by
  have hvalue : number? "value" tx.request.view = some tx.request.value :=
    number?_of_text? rfl h.request.value
  have hgas : number? "gas" tx.request.view = some tx.request.gas :=
    number?_of_text? rfl h.request.gas
  have hnonce : number? "nonce" tx.request.view = some tx.request.nonce :=
    number?_of_text? rfl h.request.nonce
  have htime : number? "validUntilTime" tx.request.view = some tx.request.expiry :=
    number?_of_text? rfl h.request.isUint256_expiry
  have hdata : bytes? "data" tx.request.view = some tx.request.data := bytes?_of_text? rfl
  have hdomain : bytes? "domainSeparator" (listing tx domain signature) = some domain :=
    bytes?_of_text? rfl
  have htype : bytes? "requestTypeHash" (listing tx domain signature) = some tx.requestTypeHash :=
    bytes?_of_text? rfl
  have hsuffix : bytes? "suffixData" (listing tx domain signature) =
      some tx.request.suffixBytes := bytes?_of_text? rfl
  have hsignature : bytes? "signature" (listing tx domain signature) = some signature :=
    bytes?_of_text? rfl
  have hrequest : map? "request" (listing tx domain signature) = some tx.request.view := rfl
  have hfrom : text? "from" tx.request.view = some tx.request.sender := rfl
  have hto : text? "to" tx.request.view = some tx.request.recipient := rfl
  have htypes : Execution.types = executeAbi := rfl
  rw [Request.asTuple] at hencoded
  simp only [callData?, hrequest, hfrom, hto, hvalue, hgas, hnonce, hdata, htime, hdomain, htype,
    hsuffix, hsignature, htypes, hencoded, Option.bind_eq_bind, Option.bind_some]
  rfl

/-- The calls by which a builder is fed what is listed. -/
def feeding (tx : RelayTx) : List Setting := [
  .set .domainName (.text tx.domain.name), .set .domainVersion (.text tx.domain.version),
  .set .domainChainId (.int tx.domain.chainId), .set .domainContract (.text tx.domain.contract),
  .set .sender (.text tx.request.sender), .set .recipient (.text tx.request.recipient),
  .set .value (.text (toString tx.request.value)), .set .gas (.text (toString tx.request.gas)),
  .set .nonce (.text (toString tx.request.nonce)), .set .data (.text (Hex.render tx.request.data)),
  .set .typeName (.text tx.request.typeName), .set .typeSuffix (.text tx.request.typeSuffix),
  expirySetting tx.request.expiry (.text (toString tx.request.expiry))]

theorem settings?_listing (h : tx.IsChecked) (domain signature : Bytes) :
    settings? (listing tx domain signature) = some (feeding tx) := by
  have hsuffix : bytes? "suffixData" (listing tx domain signature) =
      some tx.request.suffixBytes := bytes?_of_text? rfl
  have htext : Bytes.toText? tx.request.suffixBytes = some tx.request.typeSuffix :=
    Bytes.toText?_ofText _
  have htype : text? "requestType" (listing tx domain signature) =
      some (Relay.requestType tx.request.typeName tx.request.typeSuffix) := rfl
  have htime : number? "validUntilTime" tx.request.view = some tx.request.expiry :=
    number?_of_text? rfl h.request.isUint256_expiry
  have hrequest : map? "request" (listing tx domain signature) = some tx.request.view := rfl
  have hdomain : map? "domain" (listing tx domain signature) = some tx.domain.view := rfl
  rw [settings?, hdomain, hrequest, hsuffix, htype]
  show ((Bytes.toText? tx.request.suffixBytes).bind fun suffix =>
    (typeName? (Relay.requestType tx.request.typeName tx.request.typeSuffix) suffix).bind
      fun name => (number? "validUntilTime" tx.request.view).bind fun time => _) = _
  rw [htext, Option.bind_some, typeName?_requestType, Option.bind_some, htime]
  rfl

/-- A builder that is fed what is listed holds it, the expiry in the form in which it is accepted. -/
theorem exists_recorded_feeding (h : tx.IsChecked) :
    ∃ expiry, recorded {} (feeding tx) = ⟨tx.domain.listed, tx.request.listed expiry⟩ ∧
      Request.check (tx.request.listed expiry) = .ok tx.request := by
  rcases h.request.noExpiry_or_validUntil with ⟨hno, htime⟩ | ⟨hno, time, htime⟩
  · have hexpiry : tx.request.expiry = Field.Reader.maxUint256 := Request.expiry_eq_max hno
    refine ⟨("no_expiry", .bool true), ?_, ?_⟩
    · rw [feeding, expirySetting, if_pos hexpiry]
      rfl
    · exact Request.check_listed h.request rfl (by rw [htime]; rfl) (by rw [hno]; rfl)
  · have hexpiry : tx.request.expiry = time := Request.expiry_eq_validUntil hno htime
    have hmax : tx.request.expiry ≠ Field.Reader.maxUint256 := by
      rw [hexpiry]
      exact h.request.validUntil_ne_max hno htime
    have hread : Field.Reader.orNothing Field.Reader.uint256 (.text (toString time)) =
        .ok tx.request.validUntil? := by
      simp only [Field.Reader.orNothing, Field.uint256_text (h.request.validUntil time htime),
        htime]
      rfl
    refine ⟨("valid_until_time", .text (toString time)), ?_, ?_⟩
    · rw [feeding, expirySetting, if_neg hmax, hexpiry]
      rfl
    · exact Request.check_listed h.request rfl (Field.optional_of_get? rfl hread) (by rw [hno]; rfl)

/-- A builder that is fed what is listed builds what was listed. -/
theorem build_feeding (h : tx.IsChecked) : (recorded {} (feeding tx)).build = .ok tx := by
  obtain ⟨expiry, hrecorded, hrequest⟩ := exists_recorded_feeding h
  rw [hrecorded]
  exact RelayBuilder.build_of_checks (Domain.check_listed h.domain) hrequest

end SignedRelayTx

namespace RelayBuilder

open Relay

/-- **The payload loses nothing.** From it alone the call of the forwarder can be made again, byte
for byte, and a builder can be fed that builds the same relay transaction. -/
theorem payload_rebuilds {builder : RelayBuilder} {tx : RelayTx} {sig : Signature}
    (h : builder.build = .ok tx) (hv : sig.v = 27 ∨ sig.v = 28) (hr : Field.IsUint256 sig.r)
    (hs : Field.IsUint256 sig.s) :
    ∃ payload call, (SignedRelayTx.mk tx sig).payload = .ok payload ∧
      (SignedRelayTx.mk tx sig).call = .ok call ∧
      Payload.text? "forwarder" payload = some call.contract ∧
      Payload.callData? payload = some call.data ∧
      Payload.bytes? "requestTypeHash" payload =
        (Payload.text? "requestType" payload).map keccakText ∧
      ∃ settings, Payload.settings? payload = some settings ∧
        ∀ session, ∃ rebuilt last, (record {} settings).outcome session = (.ok rebuilt, last) ∧
          rebuilt.build = .ok tx ∧
          ∃ digest, tx.digest = .ok digest ∧ rebuilt.build.bind RelayTx.digest = .ok digest := by
  have hchecked := isChecked_of_build h
  have hsig := SignedRelayTx.isSized_of_isForwarderV hr hs hv
  obtain ⟨domain, hdomain, hlen⟩ := hchecked.exists_domain
  obtain ⟨encoded, hcall, hencoded⟩ := SignedRelayTx.exists_call hchecked hdomain hlen hsig hv
  obtain ⟨digest, hdigest, -⟩ := hchecked.exists_digest
  refine ⟨_, _, SignedRelayTx.payload_eq hdomain hsig, hcall, rfl,
    SignedRelayTx.callData?_listing hchecked hencoded, Payload.bytes?_of_text? rfl, _,
    SignedRelayTx.settings?_listing hchecked domain sig.layout, fun session => ?_⟩
  obtain ⟨last, hrecord⟩ := outcome_record {} (SignedRelayTx.feeding tx) session
  have hbuild := SignedRelayTx.build_feeding hchecked
  refine ⟨_, last, hrecord, hbuild, digest, hdigest, ?_⟩
  rw [hbuild]
  exact hdigest

/-- The sample with data and with one more member in its type. -/
def memoSample : RelayBuilder :=
  (sample.set .data (.text "0xC0DE")).set .typeSuffix (.text "bytes32 memo)")

/-- What comes out of the sample with more in it. -/
def memoTx : RelayTx where
  domain := RelayTx.sample.domain
  request := { RelayTx.sample.request with data := [0xc0, 0xde], typeSuffix := "bytes32 memo)" }

theorem payload_rebuilds_memo :
    memoSample.build = .ok memoTx ∧
      ∃ payload call, (SignedRelayTx.mk memoTx ⟨1, 1, 27⟩).payload = .ok payload ∧
        (SignedRelayTx.mk memoTx ⟨1, 1, 27⟩).call = .ok call ∧
        Payload.text? "forwarder" payload = some call.contract ∧
        Payload.callData? payload = some call.data ∧
        Payload.bytes? "requestTypeHash" payload =
          (Payload.text? "requestType" payload).map keccakText ∧
        ∃ settings, Payload.settings? payload = some settings ∧
          ∀ session, ∃ rebuilt last,
            (record {} settings).outcome session = (.ok rebuilt, last) ∧
              rebuilt.build = .ok memoTx ∧
              ∃ digest, memoTx.digest = .ok digest ∧
                rebuilt.build.bind RelayTx.digest = .ok digest :=
  have hbuild : memoSample.build = .ok memoTx := rfl
  ⟨hbuild, payload_rebuilds hbuild (.inl rfl) ⟨by decide, by decide⟩ ⟨by decide, by decide⟩⟩

end RelayBuilder

end MetaTx
