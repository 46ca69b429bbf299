import MetaTx.Proofs.Relay.Flow

/-!
# Which account signs

The sender of a relay transaction and the accounts of signers are kept as texts, and as such they
are compared: a signer that is not the sender is noticed, and so is a gas payer that is. Addresses
are brought to their normal form when a relay transaction is built, and signers show theirs in that
form, so what is compared are accounts, however the sender was spelled.
-/

namespace MetaTx

/-! ## Accounts of signers -/

namespace Signer

/-- The account of the key that a signer signs with. -/
def accountBytes (signer : Signer) : Bytes := signer.publicKey.accountBytes

theorem length_accountBytes (signer : Signer) : signer.accountBytes.length = Address.width := by
  rw [accountBytes, PublicKey.accountBytes, List.length_drop, length_keccak]
  rfl

theorem account_eq_render_iff (signer : Signer) {account : Bytes}
    (h : account.length = Address.width) :
    signer.account = Address.render account ↔ signer.accountBytes = account :=
  ⟨Address.render_inj signer.length_accountBytes h, congrArg Address.render⟩

theorem account_eq_iff (signer other : Signer) :
    signer.account = other.account ↔ signer.accountBytes = other.accountBytes :=
  account_eq_render_iff signer other.length_accountBytes

end Signer

/-! ## The sender of what is built -/

/-- The sender of what is built is the normal form of what was recorded for it. -/
theorem RelayBuilder.normal_of_build {b : RelayBuilder} {tx : RelayTx} (h : b.build = .ok tx) :
    ∃ v, Relay.Request.sender? b.request = some v ∧
      Address.normal v = .ok tx.request.sender := by
  have hfields := (Relay.Request.checkFields_of_check (checks_of_build h).2).1
  exact Relay.normal_of_checkSender (Relay.Request.checkFields_eq_ok_iff.mp hfields).sender

/-! ## Notices -/

namespace Relay

/-- What is compared with the sender are accounts, in whatever way it was spelled. -/
theorem outcome_sign_of_denotes {tx : RelayTx} {v : Value} {account : Bytes}
    (hnormal : Address.normal v = .ok tx.request.sender) (hdenotes : Address.Denotes v account)
    (signer : Signer) (session : Session) :
    (tx.sign signer).outcome session = (signAs tx signer).outcome (session.noted
      (if signer.accountBytes = account then [] else [foreignNotice tx signer])) := by
  obtain ⟨found, hfound, hlength, hsender⟩ := Address.exists_denotes_of_normal hnormal
  obtain rfl := hfound.unique hdenotes
  simp only [outcome_sign_eq, hsender, ne_eq, signer.account_eq_render_iff hlength, ite_not]

/-- Sender and gas payer are compared by their accounts. -/
theorem outcome_viaGasPayer_of_accounts (tx : RelayTx) (sender payer : Signer) (terms : GasTerms)
    (session : Session) :
    (viaGasPayer tx sender payer terms).outcome session =
      (do wrap (← tx.sign sender) payer terms).outcome (session.noted
        (if sender.accountBytes = payer.accountBytes then [sameNotice sender] else [])) := by
  simp only [outcome_viaGasPayer_eq, sender.account_eq_iff payer]

end Relay

/-! ## The result -/

/-- **An address in normal form stands for its account.** A value has a normal form exactly if it
is taken, and the form is the one checksummed text of the account, which is its own normal form. Two
values come to the same form exactly if they stand for one account. So a signer is noticed exactly
if its account is not that of the sender, in whatever way this was spelled when the relay
transaction was built, and so is a gas payer exactly if its account is that of the sender. -/
theorem Address.normal_tells_account :
    (∀ v, (∃ t, normal v = .ok t) ↔ IsTaken v) ∧
    (∀ v account t, Denotes v account → IsTaken v → (normal v = .ok t ↔ IsChecksummed t account)) ∧
    (∀ v t, normal v = .ok t → normal (.text t) = .ok t) ∧
    (∀ v w t u, normal v = .ok t → normal w = .ok u →
      (t = u ↔ ∃ account, Denotes v account ∧ Denotes w account)) ∧
    (∀ (b : RelayBuilder) tx, b.build = .ok tx → ∃ v account,
      Relay.Request.sender? b.request = some v ∧ Denotes v account ∧
      ∀ (signer : Signer) session,
        (tx.sign signer).outcome session = (Relay.signAs tx signer).outcome (session.noted
          (if signer.accountBytes = account then [] else [Relay.foreignNotice tx signer]))) ∧
    ∀ tx (sender payer : Signer) terms session,
      (Relay.viaGasPayer tx sender payer terms).outcome session =
        (do Relay.wrap (← tx.sign sender) payer terms).outcome (session.noted
          (if sender.accountBytes = payer.accountBytes then [Relay.sameNotice sender] else [])) := by
  refine ⟨fun v => exists_normal_iff, fun v account t => normal_eq_ok_iff, fun v t =>
    normal_of_normal, fun v w t u => normal_eq_iff, fun b tx hbuild => ?_,
    Relay.outcome_viaGasPayer_of_accounts⟩
  obtain ⟨v, hv, hnormal⟩ := RelayBuilder.normal_of_build hbuild
  obtain ⟨account, hdenotes, -, -⟩ := exists_denotes_of_normal hnormal
  exact ⟨v, account, hv, hdenotes, Relay.outcome_sign_of_denotes hnormal hdenotes⟩

/-- The digits of an account, in upper case. -/
def Address.upperDigits : List Char := (List.replicate width ['A', 'B']).flatten

theorem Address.mem_upperDigits {c : Char} (h : c ∈ upperDigits) : c = 'A' ∨ c = 'B' := by
  obtain ⟨pair, hpair, hc⟩ := List.mem_flatten.mp h
  rw [List.eq_of_mem_replicate hpair] at hc
  simpa using hc

/-- The account with these digits. -/
def Address.sampleAccount : Bytes := List.replicate width 0xAB

theorem Address.render_sample :
    render sampleAccount = "0xABaBaBaBABabABabAbAbABAbABabababaBaBABaB" := by
  rw [render, Keccak.Plain.keccak_eq]
  decide +kernel

/-- An account in upper case behind a mark in upper case, the same account as bytes, and the sender
of a relay transaction that was recorded as bytes. -/
theorem Address.normal_tells_account_upperDigits :
    let spelled := Value.text (String.ofList (['0', 'X'] ++ upperDigits))
    let checked := "0xABaBaBaBABabABabAbAbABAbABabababaBaBABaB"
    normal spelled = .ok checked ∧ normal (.text checked) = .ok checked ∧
    (∃ a, Denotes spelled a ∧ Denotes (.bytes sampleAccount) a) ∧
    ∃ sender, Denotes (.bytes (List.replicate width 2)) sender ∧ ∀ (signer : Signer) session,
      (RelayTx.sample.sign signer).outcome session =
        (Relay.signAs RelayTx.sample signer).outcome (session.noted
          (if signer.accountBytes = sender then []
            else [Relay.foreignNotice RelayTx.sample signer])) := by
  intro spelled checked
  obtain ⟨-, toText, again, same, signed, -⟩ := normal_tells_account
  have hdenotes : Denotes spelled sampleAccount :=
    .text ⟨by decide, ⟨['0', 'X'], by decide, String.toList_ofList⟩, by decide⟩
  have hdigits : ∀ c ∈ upperDigits, Hex.isDigit c = true ∧ c.isLower = false := by
    intro c hc
    rcases mem_upperDigits hc with rfl | rfl <;> decide
  have htaken : IsTaken spelled :=
    .digits String.toList_ofList (by decide) (by decide) (fun c hc => (hdigits c hc).1)
      (.inr fun c hc => (hdigits c hc).2)
  have hchecked : IsChecksummed checked sampleAccount := by
    have hrender := isChecksummed_render (by decide : sampleAccount.length = width)
    rwa [render_sample] at hrender
  have hnormal := (toText spelled sampleAccount checked hdenotes htaken).mpr hchecked
  have hbytes := (toText (.bytes sampleAccount) sampleAccount checked (.bytes (by decide))
    (.bytes (by decide))).mpr hchecked
  obtain ⟨v, sender, hv, hsender, houtcome⟩ := signed _ _ RelayBuilder.build_sample
  obtain rfl : Value.bytes (List.replicate width 2) = v := Option.some.inj hv
  exact ⟨hnormal, again _ _ hnormal, (same _ _ _ _ hnormal hbytes).mp rfl, sender, hsender,
    houtcome⟩

end MetaTx
