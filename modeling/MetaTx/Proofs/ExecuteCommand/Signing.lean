import MetaTx.Proofs.ExecuteCommand.Building
import MetaTx.Proofs.ExecuteCommand.Options
import MetaTx.Proofs.Hash.Keccak
import MetaTx.Proofs.Key.Conversion
import MetaTx.Proofs.Registry.Interleaving
import MetaTx.Proofs.Relay.Accounts
import MetaTx.Proofs.Relay.Flow
import MetaTx.Proofs.Relay.Payload
import MetaTx.Proofs.Value.Json

/-!
# What the command signs

All that is looked at below is what the command prints: a line with the data of the call, or the
payload as JSON. A forwarder reads in the data what the options say, and the payload lists the same.
One option is not taken at its word: the chain id zero stands for that of the signer.
-/

namespace MetaTx

/-! ## What is printed -/

namespace ExecuteCommand

/-- A line without its break. -/
def line? (s : String) : Option String :=
  if s.toList.getLast? = some '\n' then some (String.ofList s.toList.dropLast) else none

/-- The data of a call whose digits are printed. -/
def printedData? (s : String) : Option Bytes :=
  (line? s).bind fun line => (Hex.decode (Hex.dropMark line).toList).toOption

/-- The entries of a payload that is printed as JSON. -/
def printedPayload? (s : String) : Option (List (String × Value)) :=
  (line? s).bind fun line =>
    match Json.read? line with
    | some (.map entries) => some entries
    | _ => none

theorem line?_append (s : String) : line? (s ++ "\n") = some s := by
  have htext : (s ++ "\n").toList = s.toList ++ ['\n'] := by
    rw [String.toList_append]
    rfl
  rw [line?, htext, List.getLast?_concat, if_pos rfl, List.dropLast_concat, String.ofList_toList]

theorem printedData?_dataHex (call : ExecuteCall) :
    printedData? (call.dataHex ++ "\n") = some call.data := by
  rw [printedData?, line?_append, Option.bind_some, ExecuteCall.dataHex, Hex.decode_render]
  rfl

theorem printedPayload?_json {payload : List (String × Value)}
    (h : Json.IsListed (.map payload)) :
    printedPayload? ((Value.map payload).json 0 ++ "\n") = some payload := by
  rw [printedPayload?, line?_append, Option.bind_some, Json.read?_json h]

end ExecuteCommand

/-! ## What is asked for -/

namespace Relay.Execution

/-- What a forwarder reads is what a command asks of a signer on a chain, and the signature is by
the signer. -/
structure Fulfils (e : Execution) (c : ExecuteCommand) (signer : Signer) (chainId : Int) :
    Prop where
  sender : Address.ofText? signer.account = some e.sender
  recipient : Address.ofText? c.recipient = some e.recipient
  value : e.value = c.value
  gas : e.gas = c.gas
  nonce : e.nonce = c.nonce
  data : Hex.decode (Hex.dropMark c.data).toList = .ok e.data
  validUntil : some e.validUntil = if c.noExpiry then some (2 ^ 256 - 1) else c.validUntil?
  suffix : e.suffix = Bytes.ofText c.typeSuffix
  typeHash : e.typeHash = keccakText (requestType c.typeName c.typeSuffix)
  domain : domainSeparator (.text c.domainName) (.text c.domainVersion) (.int chainId)
    (.text c.forwarder) = .ok e.domain
  signature : signer.Recovers → ∃ sig, Signature.ofBytes e.signature = .ok sig ∧
    sig.recover e.digest = .ok signer.publicKey

end Relay.Execution

namespace ExecuteCommand

open Relay

/-- The data of a call and a payload are what a command asks of a signer. A chain id that is given
counts unless it is zero. How long the data is can be told from the command, so it is known beforehand
that a word can count its bytes. -/
structure Delivered (c : ExecuteCommand) (signer : Signer) (chainId : Int) (data : Bytes)
    (payload : List (String × Value)) : Prop where
  givenChain : ∀ n, c.chainId? = some n → n ≠ 0 → chainId = n
  ownChain : c.chainId? = none ∨ c.chainId? = some 0 → signer.chainId? = some chainId
  call : ∃ asked, Hex.decode (Hex.dropMark c.data).toList = .ok asked ∧
    data.length = callLength asked (Bytes.ofText c.typeSuffix) ∧
    (callLength asked (Bytes.ofText c.typeSuffix) < Bytes.limit Abi.wordWidth →
      ∃ e, Execution.ofCall? data = some e ∧ e.Fulfils c signer chainId)
  callData : Payload.callData? payload = some data
  requestType : Payload.text? "requestType" payload = some (requestType c.typeName c.typeSuffix)
  domain : ∃ contract, Address.ofText? c.forwarder = some contract ∧
    Payload.text? "forwarder" payload = some (Address.render contract) ∧
    Payload.map? "domain" payload = some [
      ("name", .text c.domainName), ("version", .text c.domainVersion), ("chainId", .int chainId),
      ("verifyingContract", .text (Address.render contract))]

end ExecuteCommand

/-! ## What a forwarder reads -/

namespace Relay

theorem domainSeparator_congr {a b : Value} (h : Address.ofValue a = Address.ofValue b)
    (name version chainId : Value) :
    domainSeparator name version chainId a = domainSeparator name version chainId b := by
  unfold domainSeparator encodeDomain
  rw [h]

end Relay

theorem Signature.recover_toMessage {sig : Signature} (h : sig.IsRaw) (digest : Bytes) :
    sig.toMessage.recover digest = sig.recover digest := by
  obtain ⟨r, s, v⟩ := sig
  rcases h.v with hv | hv
  · obtain rfl : v = 0 := hv
    rfl
  · obtain rfl : v = 1 := hv
    rfl

namespace ExecuteCommand

open Relay

variable {c : ExecuteCommand} {signer : Signer} {tx : RelayTx} {sig : Signature}

theorem domainSeparator_of_isAsked (h : tx.IsAsked c signer) {domain : Bytes}
    (hdomain : tx.domainSeparator = .ok domain) :
    Relay.domainSeparator (.text c.domainName) (.text c.domainVersion) (.int tx.domain.chainId)
      (.text c.forwarder) = .ok domain := by
  obtain ⟨contract, hlen, hread, hcontract⟩ := Address.exists_of_normal_text h.contract
  have hsame : Address.ofValue (.text c.forwarder) =
      Address.ofValue (.text tx.domain.contract) := by
    rw [hcontract, Address.ofValue_render hlen, Address.ofValue, hread]
    rfl
  rw [← h.domainName, ← h.domainVersion, domainSeparator_congr hsame]
  exact Except.mapError_eq_ok_iff.mp hdomain

/-- A call that carries what was asked, with a signature of its digest, fulfils the command. -/
theorem fulfils_of_carries (h : tx.IsAsked c signer) (hraw : sig.IsRaw) {e : Execution}
    {raw : Bytes} (hbytes : sig.toMessage.toBytes = .ok raw) (hcarries : e.Carries tx raw)
    (hrecover : signer.Recovers → sig.recover e.digest = .ok signer.publicKey) :
    e.Fulfils c signer tx.domain.chainId := by
  have hsized := isSized_toMessage hraw
  have hlayout : raw = sig.toMessage.layout :=
    Except.ok.inj (hbytes.symm.trans (Signature.toBytes_eq hsized))
  exact {
    sender := Address.ofText?_of_normal h.sender hcarries.sender_length hcarries.sender
    recipient := Address.ofText?_of_normal h.recipient hcarries.recipient_length hcarries.recipient
    value := hcarries.value.trans h.value
    gas := hcarries.gas.trans h.gas
    nonce := hcarries.nonce.trans h.nonce
    data := by rw [hcarries.data]; exact h.data
    validUntil := by rw [hcarries.validUntil]; exact h.expiry
    suffix := by rw [hcarries.suffix, h.typeSuffix]
    typeHash := by
      rw [hcarries.typeHash, ← h.typeName, ← h.typeSuffix]
      rfl
    domain := domainSeparator_of_isAsked h hcarries.domain
    signature := fun hrecovers => by
      refine ⟨sig.toMessage, ?_, ?_⟩
      · rw [hcarries.signature, hlayout, Signature.ofBytes_layout hsized]
      · rw [Signature.recover_toMessage hraw, hrecover hrecovers] }

/-! ## The payload -/

theorem isListed_of_isUint256 {n : Int} (h : Field.IsUint256 n) : Json.IsListed (.int n) := by
  obtain ⟨m, rfl⟩ := Int.eq_ofNat_of_zero_le h.1
  have hlimit := Field.limit_lt_maxDigits
  have hlt := h.2
  exact .number (by omega)

/-- Everything in a payload is a text, a number that is not too long, or a mapping of these. -/
theorem isListed_listing (h : tx.IsChecked) (domain signature : Bytes) :
    Json.IsListed (.map (SignedRelayTx.listing tx domain signature)) := by
  have hdomain : Json.IsListed (.map tx.domain.view) := by
    refine .map fun entry hentry => ?_
    simp only [Domain.view, List.mem_cons, List.not_mem_nil, or_false] at hentry
    rcases hentry with rfl | rfl | rfl | rfl
    · exact .text _
    · exact .text _
    · exact isListed_of_isUint256 h.domain.chainId
    · exact .text _
  have hrequest : Json.IsListed (.map tx.request.view) := by
    refine .map fun entry hentry => ?_
    simp only [Request.view, List.mem_cons, List.not_mem_nil, or_false] at hentry
    rcases hentry with rfl | rfl | rfl | rfl | rfl | rfl | rfl
    all_goals exact .text _
  refine .map fun entry hentry => ?_
  simp only [SignedRelayTx.listing, List.mem_cons, List.not_mem_nil, or_false] at hentry
  rcases hentry with rfl | rfl | rfl | rfl | rfl | rfl | rfl | rfl
  case inr.inl => exact hdomain
  case inr.inr.inr.inr.inr.inl => exact hrequest
  all_goals exact .text _

theorem givenChain_of_chain {n chainId : Int} (hchain : c.chain signer = .int chainId)
    (hn : c.chainId? = some n) (hzero : n ≠ 0) : chainId = n := by
  have hfilter : c.chainId?.filter (· ≠ 0) = some n := by
    rw [hn, Option.filter_some, if_pos (decide_eq_true hzero)]
  rw [chain, hfilter] at hchain
  exact (Value.int.inj hchain).symm

theorem ownChain_of_chain {chainId : Int} (hchain : c.chain signer = .int chainId)
    (hnone : c.chainId? = none ∨ c.chainId? = some 0) : signer.chainId? = some chainId := by
  have hfilter : c.chainId?.filter (· ≠ 0) = none := by
    rcases hnone with hnone | hzero
    · rw [hnone]
      rfl
    · rw [hzero]
      rfl
  rw [chain, hfilter] at hchain
  change signer.chainValue = .int chainId at hchain
  unfold Signer.chainValue at hchain
  split at hchain
  · next n hn =>
    cases hchain
    exact hn
  · cases hchain

/-- The call and the payload of a signed request that was asked for. -/
theorem exists_payload (hchecked : tx.IsChecked) (h : tx.IsAsked c signer) (hraw : sig.IsRaw)
    {digest : Bytes} (hdigest : tx.digest = .ok digest)
    (hrecover : signer.Recovers → sig.recover digest = .ok signer.publicKey) {call : ExecuteCall}
    (hcall : (SignedRelayTx.mk tx sig.toMessage).call = .ok call) :
    ∃ payload, (SignedRelayTx.mk tx sig.toMessage).payload = .ok payload ∧
      Json.IsListed (.map payload) ∧
      c.Delivered signer tx.domain.chainId call.data payload := by
  have hsized := isSized_toMessage hraw
  obtain ⟨domain, hdomain, hlen⟩ := hchecked.exists_domain
  obtain ⟨encoded, hmade, hencoded⟩ :=
    SignedRelayTx.exists_call hchecked hdomain hlen hsized (v_toMessage hraw)
  obtain rfl := Except.ok.inj (hcall.symm.trans hmade)
  obtain ⟨contract, -, hread, hcontract⟩ := Address.exists_of_normal_text h.contract
  refine ⟨_, SignedRelayTx.payload_eq hdomain hsized, isListed_listing hchecked _ _, {
    givenChain := fun n => givenChain_of_chain h.chainId
    ownChain := ownChain_of_chain h.chainId
    call := ⟨tx.request.data, h.data, ?_⟩
    callData := SignedRelayTx.callData?_listing hchecked hencoded
    requestType := ?_
    domain := ⟨contract, hread, ?_, ?_⟩ }⟩
  · obtain ⟨hcount, hread⟩ := exists_execution_of_call hchecked hraw hmade
    rw [← h.typeSuffix]
    refine ⟨hcount, fun hfit => ?_⟩
    obtain ⟨e, raw, he, hbytes, hcarries, hsigned⟩ := hread hfit
    obtain rfl := Except.ok.inj (hdigest.symm.trans hsigned)
    exact ⟨e, he, fulfils_of_carries h hraw hbytes hcarries hrecover⟩
  · rw [← h.typeName, ← h.typeSuffix]
    rfl
  · rw [← hcontract]
    rfl
  · rw [← h.domainName, ← h.domainVersion, ← hcontract]
    rfl

/-! ## Runs -/

variable {settings : Settings} {around : Surroundings} {session last : Session}
  {signed : SignedRelayTx} {call : ExecuteCall} {text : String} {out : Outcome}

/-- What a command does before anything is printed. -/
def work (c : ExecuteCommand) (settings : Settings) (around : Surroundings) :
    Run (SignedRelayTx × ExecuteCall) := do
  let (stored, _) ← Registry.get {} settings around
  c.sign stored.signer

/-- What a command leaves, by how its work ended. -/
def conclude (c : ExecuteCommand) : Except Error (SignedRelayTx × ExecuteCall) → Run Outcome
  | .ok (signed, call) => return { code := 0, output := ← c.printed signed call }
  | .error e =>
    if e.isA .any then do
      Session.notify .error ("Failed to build execute call: " ++ e.message)
      return { code := 1 }
    else throw e

theorem run_eq (c : ExecuteCommand) (around : Surroundings) :
    c.run around = (do
      let settings ← liftM (Settings.read [] around)
      let result ← Session.attempt (c.work settings around)
      c.conclude result) := rfl

theorem code_of_conclude_error {e : Error}
    (h : (c.conclude (.error e)).outcome session = (.ok out, last)) : out.code = 1 := by
  rw [conclude] at h
  by_cases hany : e.isA .any = true
  · rw [if_pos hany] at h
    cases h
    rfl
  · rw [if_neg hany] at h
    cases h

theorem outcome_run (hsettings : Settings.read [] around = .ok settings)
    (hwork : (c.work settings around).outcome session = (.ok (signed, call), last))
    (hprinted : c.printed signed call = .ok text) :
    (c.run around).outcome session = (.ok ⟨0, text, ""⟩, last) := by
  have hread : (liftM (Settings.read [] around) : Run Settings).outcome session =
      (.ok settings, session) := by
    rw [Run.outcome_lift, hsettings]
  have hattempt := Run.outcome_attempt (c.work settings around) session
  rw [hwork] at hattempt
  have hconclude : (c.conclude (.ok (signed, call))).outcome last = (.ok ⟨0, text, ""⟩, last) := by
    rw [conclude, hprinted]
    rfl
  rw [run_eq]
  exact (Run.outcome_bind_ok hread).trans ((Run.outcome_bind_ok hattempt).trans hconclude)

/-- A command that ends with success has signed. -/
theorem exists_of_run (h : (c.run around).outcome session = (.ok out, last))
    (hcode : out.code = 0) :
    ∃ settings signed call text, Settings.read [] around = .ok settings ∧
      (c.work settings around).outcome session = (.ok (signed, call), last) ∧
      c.printed signed call = .ok text ∧ out = ⟨0, text, ""⟩ := by
  rw [run_eq] at h
  obtain ⟨settings, between, hread, h⟩ := Run.exists_of_outcome_bind h
  obtain ⟨hsettings, rfl⟩ := Run.eq_of_outcome_lift hread
  obtain ⟨result, between, hattempt, h⟩ := Run.exists_of_outcome_bind h
  obtain ⟨hresult, hbetween⟩ := Prod.mk.inj ((Run.outcome_attempt _ _).symm.trans hattempt)
  obtain rfl := Except.ok.inj hresult
  rcases hwork : (c.work settings around).outcome session with ⟨e | ⟨signed, call⟩, after⟩
  · rw [hwork] at h
    rw [code_of_conclude_error h] at hcode
    cases hcode
  · rw [hwork] at h hbetween
    obtain rfl : after = between := hbetween
    obtain ⟨text, printing, hprinted, h⟩ := Run.exists_of_outcome_bind h
    obtain ⟨htext, rfl⟩ := Run.eq_of_outcome_lift hprinted
    cases h
    exact ⟨settings, signed, call, text, hsettings, hwork, htext, rfl⟩

theorem exists_of_work
    (h : (c.work settings around).outcome session = (.ok (signed, call), last)) :
    ∃ stored registry between tx digest before sig,
      (Registry.get {} settings around).outcome session = (.ok (stored, registry), between) ∧
      (c.fedBuilder stored.signer).build = .ok tx ∧ tx.digest = .ok digest ∧
      (stored.signer.signDigest digest).outcome before = (.ok sig, last) ∧
      signed = ⟨tx, sig.toMessage⟩ ∧ signed.call = .ok call := by
  obtain ⟨⟨stored, registry⟩, between, hget, h⟩ := Run.exists_of_outcome_bind h
  obtain ⟨builder, afterBuilder, hbuilder, h⟩ := Run.exists_of_outcome_bind h
  obtain ⟨told, hfed⟩ := exists_outcome_builder c stored.signer between
  obtain ⟨hfed, rfl⟩ := Prod.mk.inj (hfed.symm.trans hbuilder)
  obtain rfl := Except.ok.inj hfed
  obtain ⟨tx, _, hlift, h⟩ := Run.exists_of_outcome_bind h
  obtain ⟨hbuild, rfl⟩ := Run.eq_of_outcome_lift hlift
  obtain ⟨digest, hdigest, -⟩ := (RelayBuilder.isChecked_of_build hbuild).exists_digest
  obtain ⟨_, _, hsign, h⟩ := Run.exists_of_outcome_bind h
  obtain ⟨notices, hnotices⟩ := outcome_sign hdigest stored.signer (between.noted told)
  obtain ⟨sig, _, hsig, hsigned⟩ := Run.exists_of_outcome_bind (hnotices.symm.trans hsign)
  obtain ⟨call', _, hlift, h⟩ := Run.exists_of_outcome_bind h
  obtain ⟨hcall, rfl⟩ := Run.eq_of_outcome_lift hlift
  cases hsigned
  cases h
  exact ⟨stored, registry, between, tx, digest, _, sig, hget, hbuild, hdigest, hsig, rfl, hcall⟩

/-- What is printed of a signed request, in either form. -/
theorem exists_printed {payload : List (String × Value)} (hlisted : Json.IsListed (.map payload))
    (hpayload : signed.payload = .ok payload) (c : ExecuteCommand) (call : ExecuteCall) :
    ∃ text, c.printed signed call = .ok text ∧
      if c.json then printedPayload? text = some payload
      else printedData? text = some call.data := by
  unfold printed
  cases c.json with
  | true =>
    rw [hpayload]
    exact ⟨_, rfl, printedPayload?_json hlisted⟩
  | false => exact ⟨_, rfl, printedData?_dataHex call⟩

/-- With a signer that signs, whatever notices were left before, a command comes to its end. -/
theorem exists_outcome_run {stored : Stored} {registry : Registry} {between : Session}
    {digest : Bytes} (hsettings : Settings.read [] around = .ok settings)
    (hget : (Registry.get {} settings around).outcome session = (.ok (stored, registry), between))
    (hbuild : (c.fedBuilder stored.signer).build = .ok tx) (hdigest : tx.digest = .ok digest)
    (hsign : ∀ notices, ∃ last, (stored.signer.signDigest digest).outcome
      (between.noted notices) = (.ok sig, last)) :
    ∃ text last, (c.run around).outcome session = (.ok ⟨0, text, ""⟩, last) := by
  have hchecked := RelayBuilder.isChecked_of_build hbuild
  obtain ⟨first, hbuilder⟩ := exists_outcome_builder c stored.signer between
  obtain ⟨second, hnotices⟩ := outcome_sign hdigest stored.signer (between.noted first)
  rw [Session.noted_noted] at hnotices
  obtain ⟨last, hsigned⟩ := hsign (first ++ second)
  have hraw := Signer.isRaw_of_signDigest hsigned
  obtain ⟨call, hcall, -⟩ := exists_call hchecked hraw
  have hwork : (c.work settings around).outcome session =
      (.ok (⟨tx, sig.toMessage⟩, call), last) := by
    refine (Run.outcome_bind_ok hget).trans ((Run.outcome_bind_ok hbuilder).trans ?_)
    rw [hbuild]
    refine (Run.outcome_bind_ok (Run.outcome_lift _ _)).trans ?_
    refine (Run.outcome_bind_ok (hnotices.trans (Run.outcome_bind_ok hsigned))).trans ?_
    rw [hcall]
    rfl
  obtain ⟨payload, hpayload, hlisted, -⟩ := exists_payload hchecked (isAsked_of_build hbuild) hraw
    hdigest (fun hrecovers => hrecovers _ _ _ _ hsigned) hcall
  obtain ⟨text, htext, -⟩ := exists_printed hlisted hpayload c call
  exact ⟨text, last, outcome_run hsettings hwork htext⟩

/-! ## Endings -/

/-- How a command line ends: with a fault, with a code that is not zero, with help, or with what was
asked for. Asked once more for the other form, the same run prints the other of call and payload. -/
inductive Ends (arguments : List String) (around : Surroundings) (session : Session) :
    Except Error Outcome × Session → Prop
  | fault (e : Error) (last : Session) : Ends arguments around session (.error e, last)
  | refused {out : Outcome} (last : Session) (hcode : out.code ≠ 0) :
      Ends arguments around session (.ok out, last)
  | help (hhelp : ofArguments arguments = .ok .help) :
      Ends arguments around session (.ok ⟨0, usage, ""⟩, session)
  | delivered {c : ExecuteCommand} {settings : Settings} {stored : Stored} {registry : Registry}
      {between last : Session} {chainId : Int} {data : Bytes} {payload : List (String × Value)}
      {text : String} (hcommand : ofArguments arguments = .ok (.execute c))
      (htold : c.IsTold (grammar.events arguments))
      (hsettings : Settings.read [] around = .ok settings)
      (hsigner : (Registry.get {} settings around).outcome session =
        (.ok (stored, registry), between))
      (hdelivered : c.Delivered stored.signer chainId data payload)
      (hprinted : if c.json then printedPayload? text = some payload
        else printedData? text = some data)
      (hforms : ∀ json, ∃ other,
        (run { c with json } around).outcome session = (.ok ⟨0, other, ""⟩, last) ∧
          if json then printedPayload? other = some payload else printedData? other = some data) :
      Ends arguments around session (.ok ⟨0, text, ""⟩, last)

theorem ends_of_run {arguments : List String} (hc : ofArguments arguments = .ok (.execute c))
    (hrun : (c.run around).outcome session = (.ok out, last)) (hcode : out.code = 0) :
    Ends arguments around session (.ok out, last) := by
  obtain ⟨settings, signed, call, text, hsettings, hwork, htext, rfl⟩ := exists_of_run hrun hcode
  obtain ⟨stored, registry, between, tx, digest, before, sig, hget, hbuild, hdigest, hsig, rfl,
    hcall⟩ := exists_of_work hwork
  have hrecover (hrecovers : stored.signer.Recovers) :
      sig.recover digest = .ok stored.signer.publicKey :=
    hrecovers before digest sig last hsig
  obtain ⟨payload, hpayload, hlisted, hdelivered⟩ :=
    exists_payload (RelayBuilder.isChecked_of_build hbuild) (isAsked_of_build hbuild)
      (Signer.isRaw_of_signDigest hsig) hdigest hrecover hcall
  obtain ⟨own, hown, hread⟩ := exists_printed hlisted hpayload c call
  obtain rfl := Except.ok.inj (hown.symm.trans htext)
  refine .delivered hc (isTold_of_arguments hc) hsettings hget hdelivered hread fun json => ?_
  obtain ⟨other, hother, hread⟩ := exists_printed hlisted hpayload { c with json } call
  exact ⟨other, outcome_run hsettings hwork hother, hread⟩

/-- **The command signs what its options say.** If a command line ends with the code zero and did
not ask for help, what is printed carries what was told, by the configured signer as the sender, and
the payload lists the same. Only a chain id of zero is not taken at its word. -/
theorem invoke_ends (arguments : List String) (around : Surroundings) (session : Session) :
    Ends arguments around session ((invoke arguments around).outcome session) := by
  unfold invoke
  cases hc : ofArguments arguments with
  | error refusal => exact .refused session (Nat.succ_ne_zero 1)
  | ok invocation =>
    cases invocation with
    | help => exact .help hc
    | execute c =>
      rcases hrun : (c.run around).outcome session with ⟨e | out, last⟩
      · exact .fault e last
      · by_cases hcode : out.code = 0
        · exact ends_of_run hc hrun hcode
        · exact .refused last hcode

/-! ## A chain id of zero -/

/-- A command that asks for the chain zero. -/
def zeroChain : ExecuteCommand where
  forwarder := "0x5252525252525252525252525252525252525252"
  recipient := "0x3333333333333333333333333333333333333333"
  nonce := 0
  noExpiry := true
  chainId? := some 0

def zeroChainArguments : List String := [
  "--forwarder", "0x5252525252525252525252525252525252525252",
  "--to", "0x3333333333333333333333333333333333333333", "--nonce", "0", "--no-expiry",
  "--chain-id", "0"]

/-- Settings that tell a key of the service and another chain. -/
def otherChain : Surroundings where
  environment := [("SIGNER_BACKEND", "kms"), ("AWS_KMS_KEY_ID", "key"), ("CHAIN_ID", "43112")]

def otherChainSettings : Settings := { Registry.Process.sampleSettings with chainId := 43112 }

/-- The signer that they make if the key is the generator of the curve. -/
def otherChainSigner : Signer where
  backend := .service ⟨"key", ServiceKey.defaultRegion⟩ (.ofPoint Secp256k1.g)
  chainId? := some 43112

/-- What it is asked to sign. -/
def otherChainTx : RelayTx where
  domain := ⟨"my name", "1", 43112, zeroChain.forwarder⟩
  request := ⟨otherChainSigner.account, zeroChain.recipient, 0, 30000, 0, [], none, true, "my name",
    ""⟩

def otherChainDigest : Bytes := [
  239, 139, 180, 165, 46, 69, 158, 181, 93, 218, 123, 230, 53, 127, 18, 143, 166, 153, 247, 7, 211,
  222, 51, 29, 40, 12, 93, 213, 22, 255, 228, 225]

/-- The scalars of a signature of this digest that is made with the nonce one. -/
def otherChainScalars : Nat × Nat := (
  55066263022277343669578718895168534326250603453777594175500187360389116729240,
  47623783105972638275416699291202557759366732063226107717494879699535082404664)

def otherChainSignature : Bytes :=
  [0x30, 68] ++ ([0x02, 32] ++ Bytes.ofNat 32 otherChainScalars.1) ++
    ([0x02, 32] ++ Bytes.ofNat 32 otherChainScalars.2)

/-- The service tells its key and signs once. -/
def otherChainSession : Session where
  answers := [
    .given [("PublicKey", .bytes Registry.Process.sampleKeyInfo)],
    .given [("Signature", .bytes otherChainSignature)]]

theorem render_forwarder_zeroChain :
    Address.render (List.replicate 20 0x52) = zeroChain.forwarder := by
  rw [Address.render, Keccak.Plain.keccak_eq]
  decide +kernel

theorem render_recipient_zeroChain :
    Address.render (List.replicate 20 0x33) = zeroChain.recipient := by
  rw [Address.render, Keccak.Plain.keccak_eq]
  decide +kernel

theorem outcome_get_otherChain :
    (Registry.get {} otherChainSettings otherChain).outcome otherChainSession =
      (.ok (⟨0, otherChainSigner⟩, { current? := some ⟨0, otherChainSigner⟩, count := 1 }),
        { otherChainSession with
          answers := otherChainSession.answers.tail
          requests := [.publicKey "key"]
          connections := [ServiceKey.defaultRegion] }) := rfl

theorem build_zeroChain : (zeroChain.fedBuilder otherChainSigner).build = .ok otherChainTx := by
  have hread (name : String) {account : Bytes} (h : account.length = Address.width) :
      Field.given addressReader name (.text (Address.render account)) =
        .ok (Address.render account) := by
    rw [Field.given, addressReader, Address.normal_render h]
    rfl
  have hcontract := hread "verifying_contract" (rfl : (List.replicate 20 0x52 : Bytes).length = _)
  have hrecipient := hread "to" (rfl : (List.replicate 20 0x33 : Bytes).length = _)
  rw [render_forwarder_zeroChain] at hcontract
  rw [render_recipient_zeroChain] at hrecipient
  have hdomain : otherChainTx.domain.IsRead (zeroChain.fedBuilder otherChainSigner).domain :=
    ⟨rfl, rfl, rfl, hcontract⟩
  have hsender : Request.checkSender (zeroChain.fedBuilder otherChainSigner).request =
      .ok otherChainSigner.account := by
    change Field.given addressReader "from_" (.text otherChainSigner.account) = _
    exact hread "from_" otherChainSigner.length_accountBytes
  have hrequest : otherChainTx.request.IsRead (zeroChain.fedBuilder otherChainSigner).request := {
    sender := hsender
    recipient := hrecipient
    value := rfl
    gas := rfl
    nonce := rfl
    data := rfl
    validUntil := rfl
    noExpiry := rfl
    typeName := rfl
    typeSuffix := rfl }
  exact RelayBuilder.build_of_checks (Domain.check_eq_ok_iff.mpr hdomain)
    (Request.check_of_isRead hrequest rfl)

theorem digest_otherChain : otherChainTx.digest = .ok otherChainDigest := by
  have hchecked := RelayBuilder.isChecked_of_build build_zeroChain
  have hdomain := RelayTx.domainSeparator_eq hchecked rfl render_forwarder_zeroChain.symm
  have hcontent := RelayTx.structHash_eq hchecked otherChainSigner.length_accountBytes rfl rfl
    render_recipient_zeroChain.symm
  rw [RelayTx.digest_eq hdomain hcontent]
  simp only [Message.structured, domainLayout, requestLayout, RelayTx.requestTypeHash,
    requestTypeHash, Signer.accountBytes, PublicKey.accountBytes, keccakText,
    Keccak.Plain.keccak_eq]
  exact congrArg Except.ok (by decide +kernel)

theorem outcome_signDigest_otherChain {session : Session}
    (h : session.answers = otherChainSession.answers.tail) :
    (otherChainSigner.signDigest otherChainDigest).outcome session =
      (.ok ⟨otherChainScalars.1, Signature.lower otherChainScalars.2, 0⟩,
        session.asked (.sign "key" otherChainDigest)) := by
  have hscalars : Der.signature otherChainSignature = .ok otherChainScalars := rfl
  have hid : ServiceKey.recoveryId? (.ofPoint Secp256k1.g) otherChainDigest otherChainScalars.1
      (Signature.lower otherChainScalars.2) = some 0 := by decide +kernel
  exact Signer.outcome_signDigest_of_scalars rfl hscalars hid (congrArg List.head? h)

/-- A domain on any chain, with the other options of the command. -/
theorem domainSeparator_zeroChain {chainId : Int} (h : Field.IsUint256 chainId) :
    Relay.domainSeparator (.text zeroChain.domainName) (.text zeroChain.domainVersion)
        (.int chainId) (.text zeroChain.forwarder) =
      .ok (keccak (domainLayout "my name" "1" chainId (List.replicate 20 0x52))) := by
  have hcontract := render_forwarder_zeroChain.symm
  have hchecked : (Domain.mk "my name" "1" chainId zeroChain.forwarder).IsChecked :=
    ⟨h, _, rfl, hcontract⟩
  have hlayout := encodeDomain_eq hchecked rfl hcontract
  change encodeDomain (.text zeroChain.domainName) (.text zeroChain.domainVersion) _ _ = _
    at hlayout
  rw [Relay.domainSeparator, hlayout]
  rfl

/-- The command ends with success, and what it prints is for the chain of the signer. -/
theorem invoke_zeroChain :
    ofArguments zeroChainArguments = .ok (.execute zeroChain) ∧ zeroChain.chainId? = some 0 ∧
    ∃ text last data e, (invoke zeroChainArguments otherChain).outcome otherChainSession =
        (.ok ⟨0, text, ""⟩, last) ∧
      printedData? text = some data ∧ Execution.ofCall? data = some e ∧
      Relay.domainSeparator (.text zeroChain.domainName) (.text zeroChain.domainVersion)
        (.int 43112) (.text zeroChain.forwarder) = .ok e.domain ∧
      Relay.domainSeparator (.text zeroChain.domainName) (.text zeroChain.domainVersion)
        (.int 0) (.text zeroChain.forwarder) ≠ .ok e.domain := by
  have hcommand : ofArguments zeroChainArguments = .ok (.execute zeroChain) := rfl
  have hsettings : Settings.read [] otherChain = .ok otherChainSettings := rfl
  obtain ⟨text, last, hrun⟩ := exists_outcome_run hsettings outcome_get_otherChain build_zeroChain
    digest_otherChain fun notices => ⟨_, outcome_signDigest_otherChain rfl⟩
  refine ⟨hcommand, rfl, text, last, ?_⟩
  cases ends_of_run hcommand hrun rfl with
  | refused _ hcode => exact absurd rfl hcode
  | help hhelp => cases hcommand.symm.trans hhelp
  | delivered hagain _ hread hget hdelivered hprinted _ =>
    cases hcommand.symm.trans hagain
    cases hsettings.symm.trans hread
    cases outcome_get_otherChain.symm.trans hget
    cases hdelivered.ownChain (.inr rfl)
    obtain ⟨asked, hasked, -, hcall⟩ := hdelivered.call
    cases hasked
    obtain ⟨e, he, hfulfils⟩ := hcall (by decide +kernel)
    have hdomain := hfulfils.domain
    refine ⟨_, e, ?_, hprinted, he, hdomain, ?_⟩
    · rw [invoke, hcommand]
      exact hrun
    · rw [← hdomain, domainSeparator_zeroChain Field.isUint256_zero,
        domainSeparator_zeroChain ⟨by decide, by decide⟩, ne_eq, Except.ok.injEq]
      simp only [domainLayout, keccakText, Keccak.Plain.keccak_eq]
      decide +kernel

end ExecuteCommand

end MetaTx
