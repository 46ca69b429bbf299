import MetaTx.Proofs.Address.Spelling
import MetaTx.Relay.Builder

/-!
# What a built relay transaction holds

Whatever was recorded in a builder, a relay transaction that comes out of it holds checksummed
addresses, numbers of 256 bits, a type name, and one of an expiry and the statement that there
is none. Later results use this invariant only, and never look at the recorded values again.
-/

namespace MetaTx

/-! ## The invariant -/

/-- A text is the checksummed form of an account. -/
def Address.IsNormal (s : String) : Prop := ∃ bs : Bytes, bs.length = width ∧ s = render bs

/-- A number fits a word of 256 bits and is not negative. -/
def Field.IsUint256 (n : Int) : Prop := 0 ≤ n ∧ n < Bytes.limit 32

namespace Relay

structure Domain.IsChecked (d : Domain) : Prop where
  chainId : Field.IsUint256 d.chainId
  contract : Address.IsNormal d.contract

structure Request.IsChecked (r : Request) : Prop where
  sender : Address.IsNormal r.sender
  recipient : Address.IsNormal r.recipient
  value : Field.IsUint256 r.value
  gas : Field.IsUint256 r.gas
  nonce : Field.IsUint256 r.nonce
  validUntil : ∀ time, r.validUntil? = some time → Field.IsUint256 time
  typeName : r.typeName ≠ ""
  expiryRule : expiryRule? r.validUntil? r.noExpiry = none

end Relay

structure RelayTx.IsChecked (tx : RelayTx) : Prop where
  domain : tx.domain.IsChecked
  request : tx.request.IsChecked

/-! ## Fields -/

namespace Field

theorem isUint256_zero : IsUint256 0 := ⟨by decide, by decide⟩

theorem isUint256_max : IsUint256 Reader.maxUint256 := ⟨by decide, by decide⟩

variable {α : Type} {read : Reader α} {name : String} {entries : List (String × Value)} {a : α}

theorem given_eq_ok {v : Value} (h : given read name v = .ok a) : read v = .ok a := by
  unfold given at h
  cases hread : read v with
  | ok found => rw [hread] at h; cases h; rfl
  | error reason => rw [hread] at h; cases h

theorem required_eq_ok (h : required read name entries = .ok a) : ∃ v, read v = .ok a := by
  unfold required at h
  split at h
  · next v _ => exact ⟨v, given_eq_ok h⟩
  · cases h

theorem read_of_required {v : Value} (hv : Value.get? name entries = some v)
    (h : required read name entries = .ok a) : read v = .ok a := by
  rw [required, hv] at h
  exact given_eq_ok h

theorem read_of_optional {default : α} {v : Value} (hv : Value.get? name entries = some v)
    (h : optional read default name entries = .ok a) : read v = .ok a := by
  rw [optional, hv] at h
  exact given_eq_ok h

theorem eq_default_of_optional {default : α} (hv : Value.get? name entries = none)
    (h : optional read default name entries = .ok a) : a = default := by
  rw [optional, hv] at h
  cases h
  rfl

theorem optional_eq_ok {default : α} (h : optional read default name entries = .ok a) :
    a = default ∨ ∃ v, read v = .ok a := by
  unfold optional at h
  split at h
  · next v _ => exact .inr ⟨v, given_eq_ok h⟩
  · cases h; exact .inl rfl

namespace Reader

theorem isUint256_of_uint256 {v : Value} {n : Int} (h : uint256 v = .ok n) : IsUint256 n := by
  unfold uint256 at h
  split at h
  · cases h
  · next m _ =>
    split at h
    · cases h
    · next hlow =>
      split at h
      · cases h
      · next hhigh =>
        cases h
        unfold maxUint256 at hhigh
        exact ⟨by omega, by omega⟩

theorem isUint256_of_orNothing {v : Value} {n? : Option Int}
    (h : orNothing uint256 v = .ok n?) : ∀ n, n? = some n → IsUint256 n := by
  rintro n rfl
  unfold orNothing at h
  split at h
  · cases h
  · cases hread : uint256 v with
    | error reason => rw [hread] at h; cases h
    | ok m => rw [hread] at h; cases h; exact isUint256_of_uint256 hread

theorem ne_empty_of_someText {v : Value} {s : String} (h : someText v = .ok s) : s ≠ "" := by
  unfold someText at h
  split at h
  · split at h
    · cases h
    · next hs => cases h; exact hs
  · cases h

end Reader

end Field

/-! ## Parts -/

namespace Relay

open MetaTx.Field MetaTx.Field.Checked

theorem normal_of_addressReader {v : Value} {s : String} (h : addressReader v = .ok s) :
    Address.normal v = .ok s := by
  unfold addressReader at h
  cases hn : Address.normal v with
  | ok found => rw [hn] at h; cases h; rfl
  | error broken => rw [hn] at h; cases h

theorem isNormal_of_normal {v : Value} {s : String} (h : Address.normal v = .ok s) :
    Address.IsNormal s := by
  obtain ⟨account, -, hnormal⟩ := Address.exists_denotes_of_normal h
  exact ⟨account, hnormal⟩

theorem isNormal_of_required {name : String} {entries : List (String × Value)} {s : String}
    (h : required addressReader name entries = .ok s) : Address.IsNormal s := by
  obtain ⟨v, hv⟩ := required_eq_ok h
  exact isNormal_of_normal (normal_of_addressReader hv)

theorem isUint256_of_required {name : String} {entries : List (String × Value)} {n : Int}
    (h : required Reader.uint256 name entries = .ok n) : IsUint256 n := by
  obtain ⟨v, hv⟩ := required_eq_ok h
  exact Reader.isUint256_of_uint256 hv

/-- What is given for the sender, under the public name or that of the field. -/
def Request.sender? (entries : List (String × Value)) : Option Value :=
  (Value.get? "from" entries).or (Value.get? "from_" entries)

theorem normal_of_checkSender {entries : List (String × Value)} {s : String}
    (h : Request.checkSender entries = .ok s) :
    ∃ v, Request.sender? entries = some v ∧ Address.normal v = .ok s := by
  unfold Request.checkSender at h
  unfold Request.sender?
  split at h
  · next v hnone hsome =>
    rw [hnone, hsome]
    exact ⟨v, rfl, normal_of_addressReader (given_eq_ok h)⟩
  · cases hfrom : Value.get? "from" entries with
    | none =>
      rw [required, hfrom] at h
      cases h
    | some v => exact ⟨v, rfl, normal_of_addressReader (read_of_required hfrom h)⟩

theorem isNormal_of_checkSender {entries : List (String × Value)} {s : String}
    (h : Request.checkSender entries = .ok s) : Address.IsNormal s := by
  obtain ⟨v, -, hnormal⟩ := normal_of_checkSender h
  exact isNormal_of_normal hnormal

/-- Every field of a domain is read from its entry. -/
structure Domain.IsRead (entries : List (String × Value)) (d : Domain) : Prop where
  name : required Reader.text "name" entries = .ok d.name
  version : required Reader.text "version" entries = .ok d.version
  chainId : required Reader.uint256 "chain_id" entries = .ok d.chainId
  contract : required addressReader "verifying_contract" entries = .ok d.contract

/-- Every field of a request is read from its entry. -/
structure Request.IsRead (entries : List (String × Value)) (r : Request) : Prop where
  sender : checkSender entries = .ok r.sender
  recipient : required addressReader "to" entries = .ok r.recipient
  value : optional Reader.uint256 0 "value" entries = .ok r.value
  gas : required Reader.uint256 "gas" entries = .ok r.gas
  nonce : required Reader.uint256 "nonce" entries = .ok r.nonce
  data : optional Reader.bytes [] "data" entries = .ok r.data
  validUntil : optional (Reader.orNothing Reader.uint256) none "valid_until_time" entries =
    .ok r.validUntil?
  noExpiry : optional Reader.bool false "no_expiry" entries = .ok r.noExpiry
  typeName : required Reader.someText "type_name" entries = .ok r.typeName
  typeSuffix : optional Reader.text "" "type_suffix_data" entries = .ok r.typeSuffix

variable {entries : List (String × Value)}

theorem Domain.check_eq_ok_iff {d : Domain} : check entries = .ok d ↔ d.IsRead entries := by
  constructor
  · intro h
    simp only [check, seq_eq_ok_iff, map_eq_ok_iff] at h
    obtain ⟨-, contract, ⟨-, chainId, ⟨-, version, ⟨name, hname, rfl⟩, hversion, rfl⟩, hchain,
      rfl⟩, hcontract, rfl⟩ := h
    exact ⟨hname, hversion, hchain, hcontract⟩
  · rintro ⟨hname, hversion, hchain, hcontract⟩
    rw [check, hname, hversion, hchain, hcontract]
    rfl

theorem Request.checkFields_eq_ok_iff {r : Request} :
    checkFields entries = .ok r ↔ r.IsRead entries := by
  constructor
  · intro h
    simp only [checkFields, seq_eq_ok_iff, map_eq_ok_iff] at h
    obtain ⟨-, suffix, ⟨-, typeName, ⟨-, noExpiry, ⟨-, validUntil?, ⟨-, data, ⟨-, nonce,
      ⟨-, gas, ⟨-, value, ⟨-, recipient, ⟨sender, hsender, rfl⟩, hrecipient, rfl⟩, hvalue, rfl⟩,
      hgas, rfl⟩, hnonce, rfl⟩, hdata, rfl⟩, hvalid, rfl⟩, hno, rfl⟩, htype, rfl⟩, hsuffix,
      rfl⟩ := h
    exact ⟨hsender, hrecipient, hvalue, hgas, hnonce, hdata, hvalid, hno, htype, hsuffix⟩
  · rintro ⟨hsender, hrecipient, hvalue, hgas, hnonce, hdata, hvalid, hno, htype, hsuffix⟩
    rw [checkFields, hsender, hrecipient, hvalue, hgas, hnonce, hdata, hvalid, hno, htype, hsuffix]
    rfl

theorem Domain.isChecked_of_check {d : Domain} (h : Domain.check entries = .ok d) :
    d.IsChecked := by
  have hread := check_eq_ok_iff.mp h
  exact ⟨isUint256_of_required hread.chainId, isNormal_of_required hread.contract⟩

theorem Request.isChecked_of_checkFields {r : Request} (h : Request.checkFields entries = .ok r)
    (hrule : expiryRule? r.validUntil? r.noExpiry = none) : r.IsChecked := by
  have hread := checkFields_eq_ok_iff.mp h
  refine ⟨isNormal_of_checkSender hread.sender, isNormal_of_required hread.recipient, ?_,
    isUint256_of_required hread.gas, isUint256_of_required hread.nonce, ?_, ?_, hrule⟩
  · rcases optional_eq_ok hread.value with hdefault | ⟨v, hv⟩
    · rw [hdefault]
      exact isUint256_zero
    · exact Reader.isUint256_of_uint256 hv
  · rcases optional_eq_ok hread.validUntil with hdefault | ⟨v, hv⟩
    · rw [hdefault]
      intro time htime
      cases htime
    · exact Reader.isUint256_of_orNothing hv
  · obtain ⟨v, hv⟩ := required_eq_ok hread.typeName
    exact Reader.ne_empty_of_someText hv

/-- A request is accepted if its fields are, and then its expiry. -/
theorem Request.checkFields_of_check {r : Request} (h : Request.check entries = .ok r) :
    Request.checkFields entries = .ok r ∧ expiryRule? r.validUntil? r.noExpiry = none := by
  unfold Request.check at h
  cases hfields : Request.checkFields entries with
  | refused refusals => rw [hfields] at h; cases h
  | ok fields =>
    rw [hfields] at h
    change checkExpiry fields = .ok r at h
    unfold checkExpiry at h
    split at h
    · cases h
    · next hrule =>
      cases h
      exact ⟨rfl, hrule⟩

theorem Request.check_of_isRead {r : Request} (h : r.IsRead entries)
    (hrule : expiryRule? r.validUntil? r.noExpiry = none) : Request.check entries = .ok r := by
  rw [check, checkFields_eq_ok_iff.mpr h]
  change checkExpiry r = .ok r
  rw [checkExpiry, hrule]

theorem Request.isChecked_of_check {r : Request} (h : Request.check entries = .ok r) :
    r.IsChecked := by
  obtain ⟨hfields, hrule⟩ := checkFields_of_check h
  exact isChecked_of_checkFields hfields hrule

end Relay

/-! ## The whole -/

/-- A relay transaction is built of both of its parts. -/
theorem RelayBuilder.checks_of_build {b : RelayBuilder} {tx : RelayTx} (h : b.build = .ok tx) :
    Relay.Domain.check b.domain = .ok tx.domain ∧
      Relay.Request.check b.request = .ok tx.request := by
  unfold build RelayTx.check at h
  cases hdomain : Relay.Domain.check b.domain with
  | refused refusals => rw [hdomain] at h; cases h
  | ok domain =>
    cases hrequest : Relay.Request.check b.request with
    | refused refusals => rw [hdomain, hrequest] at h; cases h
    | ok request =>
      rw [hdomain, hrequest] at h
      cases h
      exact ⟨rfl, rfl⟩

theorem RelayBuilder.build_of_checks {b : RelayBuilder} {tx : RelayTx}
    (hdomain : Relay.Domain.check b.domain = .ok tx.domain)
    (hrequest : Relay.Request.check b.request = .ok tx.request) : b.build = .ok tx := by
  rw [build, RelayTx.check, hdomain, hrequest]
  rfl

/-- Whatever was recorded, a relay transaction that is built holds checked fields only. -/
theorem RelayBuilder.isChecked_of_build {b : RelayBuilder} {tx : RelayTx}
    (h : b.build = .ok tx) : tx.IsChecked := by
  obtain ⟨hdomain, hrequest⟩ := checks_of_build h
  exact ⟨Relay.Domain.isChecked_of_check hdomain, Relay.Request.isChecked_of_check hrequest⟩

/-! ## Expiry -/

namespace Relay.Request

variable {r : Request}

theorem expiry_eq_validUntil {time : Int} (hno : r.noExpiry = false)
    (htime : r.validUntil? = some time) : r.expiry = time := by
  simp [expiry, hno, htime]

theorem expiry_eq_max (hno : r.noExpiry = true) : r.expiry = Field.Reader.maxUint256 := by
  simp [expiry, hno]

/-- The largest number is no time of expiry. -/
theorem IsChecked.validUntil_ne_max (h : r.IsChecked) {time : Int} (hno : r.noExpiry = false)
    (htime : r.validUntil? = some time) : time ≠ Field.Reader.maxUint256 := by
  have hrule := h.expiryRule
  rw [hno, htime] at hrule
  intro hmax
  simp [expiryRule?, hmax] at hrule

/-- Either there is a time of expiry, or it is stated that there is none. -/
theorem IsChecked.noExpiry_or_validUntil (h : r.IsChecked) :
    (r.noExpiry = true ∧ r.validUntil? = none) ∨
      (r.noExpiry = false ∧ ∃ time, r.validUntil? = some time) := by
  have hrule := h.expiryRule
  unfold expiryRule? at hrule
  split at hrule
  · cases hrule
  · next hno htime => exact .inl ⟨hno, htime⟩
  · cases hrule
  · next time hno htime => exact .inr ⟨hno, time, htime⟩

theorem IsChecked.isUint256_expiry (h : r.IsChecked) : Field.IsUint256 r.expiry := by
  rcases h.noExpiry_or_validUntil with ⟨hno, -⟩ | ⟨hno, time, htime⟩
  · rw [expiry_eq_max hno]
    exact Field.isUint256_max
  · rw [expiry_eq_validUntil hno htime]
    exact h.validUntil time htime

/-- What stands on chain tells the expiry and whether there is one. -/
theorem IsChecked.eq_of_expiry_eq {q : Request} (hr : r.IsChecked) (hq : q.IsChecked)
    (h : r.expiry = q.expiry) : r.validUntil? = q.validUntil? ∧ r.noExpiry = q.noExpiry := by
  rcases hr.noExpiry_or_validUntil with ⟨hrno, hrtime⟩ | ⟨hrno, time, hrtime⟩ <;>
    rcases hq.noExpiry_or_validUntil with ⟨hqno, hqtime⟩ | ⟨hqno, time', hqtime⟩
  · exact ⟨hrtime.trans hqtime.symm, hrno.trans hqno.symm⟩
  · rw [expiry_eq_max hrno, expiry_eq_validUntil hqno hqtime] at h
    exact absurd h.symm (hq.validUntil_ne_max hqno hqtime)
  · rw [expiry_eq_validUntil hrno hrtime, expiry_eq_max hqno] at h
    exact absurd h (hr.validUntil_ne_max hrno hrtime)
  · rw [expiry_eq_validUntil hrno hrtime, expiry_eq_validUntil hqno hqtime] at h
    exact ⟨by rw [hrtime, hqtime, h], hrno.trans hqno.symm⟩

end Relay.Request

/-! ## A sample -/

/-- A builder of a request that carries nothing and does not expire. -/
def RelayBuilder.sample : RelayBuilder where
  domain := [("name", .text "Forwarder"), ("version", .text "1"), ("chain_id", .int 1),
    ("verifying_contract", .bytes (List.replicate 20 1))]
  request := [("from", .bytes (List.replicate 20 2)), ("to", .bytes (List.replicate 20 3)),
    ("gas", .int 21000), ("nonce", .int 0), ("no_expiry", .bool true),
    ("type_name", .text "ForwardRequest")]

/-- What the sample builder makes. -/
def RelayTx.sample : RelayTx where
  domain := ⟨"Forwarder", "1", 1, Address.render (List.replicate 20 1)⟩
  request := ⟨Address.render (List.replicate 20 2), Address.render (List.replicate 20 3), 0, 21000,
    0, [], none, true, "ForwardRequest", ""⟩

namespace RelayBuilder

theorem build_sample : sample.build = .ok RelayTx.sample := rfl

theorem build_sample_set_value : (sample.set .value (.bool false)).build = .ok RelayTx.sample :=
  rfl

end RelayBuilder

end MetaTx
