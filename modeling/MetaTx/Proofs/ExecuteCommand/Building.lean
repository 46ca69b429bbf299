import Mathlib.Algebra.Group.Int.Defs
import Mathlib.Algebra.Group.Nat.Defs
import MetaTx.ExecuteCommand
import MetaTx.Proofs.Relay.Recording
import MetaTx.Proofs.Service.Traffic

/-!
# What the command builds

The command feeds a builder with its options as they are, and with the account of the signer. What
comes out of it holds them: texts unchanged, numbers unchanged, addresses in their normal form, and
data decoded. An expiry is always there, since nothing is built without one.
-/

namespace MetaTx

/-! ## What was accepted -/

namespace Field

theorem eq_of_uint256_int {m n : Int} (h : Reader.uint256 (.int m) = .ok n) : m = n := by
  simp only [Reader.uint256, Reader.int] at h
  split at h
  · cases h
  · split at h
    · cases h
    · exact Except.ok.inj h

theorem decode_of_bytes_text {s : String} {bs : Bytes} (h : Reader.bytes (.text s) = .ok bs) :
    Hex.decode (Hex.dropMark s).toList = .ok bs := by
  simp only [Reader.bytes] at h
  split at h
  · next found hread =>
    cases h
    exact hread
  · cases h

theorem eq_of_text_text {s t : String} (h : Reader.text (.text s) = .ok t) : s = t :=
  Except.ok.inj h

theorem eq_of_someText_text {s t : String} (h : Reader.someText (.text s) = .ok t) : s = t := by
  simp only [Reader.someText, Reader.text] at h
  split at h
  · cases h
  · exact Except.ok.inj h

theorem eq_of_orNothing_int {n : Int} {n? : Option Int}
    (h : Reader.orNothing Reader.uint256 (.int n) = .ok n?) : n? = some n := by
  simp only [Reader.orNothing] at h
  cases hread : Reader.uint256 (.int n) with
  | error reason => rw [hread] at h; cases h
  | ok m =>
    rw [hread] at h
    cases h
    rw [eq_of_uint256_int hread]

end Field

/-! ## The builder -/

/-- A relay transaction holds what a command asks of a signer. -/
structure RelayTx.IsAsked (tx : RelayTx) (c : ExecuteCommand) (signer : Signer) : Prop where
  domainName : tx.domain.name = c.domainName
  domainVersion : tx.domain.version = c.domainVersion
  chainId : c.chain signer = .int tx.domain.chainId
  contract : Address.normal (.text c.forwarder) = .ok tx.domain.contract
  sender : Address.normal (.text signer.account) = .ok tx.request.sender
  recipient : Address.normal (.text c.recipient) = .ok tx.request.recipient
  value : tx.request.value = c.value
  gas : tx.request.gas = c.gas
  nonce : tx.request.nonce = c.nonce
  data : Hex.decode (Hex.dropMark c.data).toList = .ok tx.request.data
  expiry : some tx.request.expiry = if c.noExpiry then some (2 ^ 256 - 1) else c.validUntil?
  typeName : tx.request.typeName = c.typeName
  typeSuffix : tx.request.typeSuffix = c.typeSuffix

namespace ExecuteCommand

open Relay

variable {c : ExecuteCommand} {signer : Signer} {tx : RelayTx}

/-- What the builder holds in the end. -/
def fedBuilder (c : ExecuteCommand) (signer : Signer) : RelayBuilder :=
  match c.noExpiry, c.validUntil? with
  | true, _ => (c.baseBuilder signer).endless
  | false, some n => (c.baseBuilder signer).set .validUntil (.int n)
  | false, none => c.baseBuilder signer

theorem exists_outcome_builder (c : ExecuteCommand) (signer : Signer) (session : Session) :
    ∃ notices, (c.builder signer).outcome session =
      (.ok (c.fedBuilder signer), session.noted notices) := by
  have hsame : session.noted [] = session := session.noted_nil
  unfold builder fedBuilder
  cases c.noExpiry with
  | true => exact ⟨_, rfl⟩
  | false =>
    cases c.validUntil? with
    | some n => exact ⟨[], by rw [hsame]; rfl⟩
    | none => exact ⟨[], by rw [hsame]; rfl⟩

/-- The expiry is the last entry of the request, if there is an entry for it. -/
theorem exists_request_fedBuilder (c : ExecuteCommand) (signer : Signer) :
    ∃ expiry, (c.fedBuilder signer).domain = (c.baseBuilder signer).domain ∧
      (c.fedBuilder signer).request = (c.baseBuilder signer).request ++ expiry ∧
      ((c.noExpiry = true ∧ expiry = [("no_expiry", .bool true)]) ∨
        (c.noExpiry = false ∧ ∃ n, c.validUntil? = some n ∧
          expiry = [("valid_until_time", .int n)]) ∨
        (c.noExpiry = false ∧ c.validUntil? = none ∧ expiry = [])) := by
  unfold fedBuilder
  cases c.noExpiry with
  | true => exact ⟨_, rfl, rfl, .inl ⟨rfl, rfl⟩⟩
  | false =>
    cases c.validUntil? with
    | some n => exact ⟨_, rfl, rfl, .inr (.inl ⟨rfl, n, rfl, rfl⟩)⟩
    | none => exact ⟨[], rfl, (List.append_nil _).symm, .inr (.inr ⟨rfl, rfl, rfl⟩)⟩

theorem chain_cases (c : ExecuteCommand) (signer : Signer) :
    (∃ n, c.chain signer = .int n) ∨ c.chain signer = .null := by
  unfold chain Signer.chainValue
  split
  · exact .inl ⟨_, rfl⟩
  · split
    · exact .inl ⟨_, rfl⟩
    · exact .inr rfl

theorem chain_of_uint256 {n : Int} (h : Field.Reader.uint256 (c.chain signer) = .ok n) :
    c.chain signer = .int n := by
  rcases chain_cases c signer with ⟨m, hm⟩ | hnull
  · rw [hm] at h ⊢
    rw [Field.eq_of_uint256_int h]
  · rw [hnull] at h
    cases h

/-- What the entries of the builder say about the expiry is what the command says. -/
theorem expiry_of_isRead {entries : List (String × Value)} {r : Request}
    (hread : r.IsRead entries) (hrule : Request.expiryRule? r.validUntil? r.noExpiry = none)
    (h : (c.noExpiry = true ∧ Value.get? "no_expiry" entries = some (.bool true)) ∨
      (c.noExpiry = false ∧ Value.get? "no_expiry" entries = none ∧
        Value.get? "valid_until_time" entries = c.validUntil?.map .int)) :
    some r.expiry = if c.noExpiry then some (2 ^ 256 - 1) else c.validUntil? := by
  rcases h with ⟨hno, hentry⟩ | ⟨hno, hentry, htime⟩
  · have htrue : true = r.noExpiry := Except.ok.inj (Field.read_of_optional hentry hread.noExpiry)
    rw [hno, if_pos rfl, Request.expiry_eq_max htrue.symm]
    rfl
  · have hfalse : r.noExpiry = false := Field.eq_default_of_optional hentry hread.noExpiry
    rw [hno, if_neg Bool.false_ne_true]
    cases hvalid : c.validUntil? with
    | some n =>
      rw [hvalid] at htime
      have hn := Field.eq_of_orNothing_int (Field.read_of_optional htime hread.validUntil)
      rw [Request.expiry_eq_validUntil hfalse hn]
    | none =>
      rw [hvalid] at htime
      have hnone := Field.eq_default_of_optional htime hread.validUntil
      rw [hfalse, hnone] at hrule
      cases hrule

theorem isAsked_of_build (h : (c.fedBuilder signer).build = .ok tx) : tx.IsAsked c signer := by
  obtain ⟨hdomain, hrequest⟩ := RelayBuilder.checks_of_build h
  obtain ⟨hfields, hrule⟩ := Request.checkFields_of_check hrequest
  obtain ⟨expiry, hsame, hentries, hexpiry⟩ := exists_request_fedBuilder c signer
  have hd := Domain.check_eq_ok_iff.mp hdomain
  have hr := Request.checkFields_eq_ok_iff.mp hfields
  rw [hsame] at hd
  rw [hentries] at hr
  have hfrom : Value.get? "from" ((c.baseBuilder signer).request ++ expiry) = none := by
    rcases hexpiry with ⟨-, rfl⟩ | ⟨-, n, -, rfl⟩ | ⟨-, -, rfl⟩ <;> rfl
  have hsender := hr.sender
  rw [Request.checkSender, hfrom] at hsender
  refine {
    domainName := (Field.eq_of_text_text (Field.read_of_required rfl hd.name)).symm
    domainVersion := (Field.eq_of_text_text (Field.read_of_required rfl hd.version)).symm
    chainId := chain_of_uint256 (Field.read_of_required rfl hd.chainId)
    contract := normal_of_addressReader (Field.read_of_required rfl hd.contract)
    sender := normal_of_addressReader (Field.given_eq_ok hsender)
    recipient := normal_of_addressReader (Field.read_of_required rfl hr.recipient)
    value := (Field.eq_of_uint256_int (Field.read_of_optional rfl hr.value)).symm
    gas := (Field.eq_of_uint256_int (Field.read_of_required rfl hr.gas)).symm
    nonce := (Field.eq_of_uint256_int (Field.read_of_required rfl hr.nonce)).symm
    data := Field.decode_of_bytes_text (Field.read_of_optional rfl hr.data)
    expiry := expiry_of_isRead hr hrule ?_
    typeName := (Field.eq_of_someText_text (Field.read_of_required rfl hr.typeName)).symm
    typeSuffix := (Field.eq_of_text_text (Field.read_of_optional rfl hr.typeSuffix)).symm }
  rcases hexpiry with ⟨hno, rfl⟩ | ⟨hno, n, hn, rfl⟩ | ⟨hno, hn, rfl⟩
  · exact .inl ⟨hno, rfl⟩
  · exact .inr ⟨hno, rfl, by rw [hn]; rfl⟩
  · exact .inr ⟨hno, rfl, by rw [hn]; rfl⟩

end ExecuteCommand

end MetaTx
