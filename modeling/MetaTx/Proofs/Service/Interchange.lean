import MetaTx.Proofs.Der
import MetaTx.Proofs.Hash.Keccak
import MetaTx.Proofs.Key.LowerHalf
import MetaTx.Proofs.Signer.Signature

/-!
# A key in the service is as good as one at hand

A signer that holds a key has the recovery id from where the signature is made, and flips it along
with the scalar `s`. A signer of the key service is told the scalars only, in either half of the
order, and finds the id once `s` is moved. If the service signs as the key at hand does, both come
to the same signature, whichever half the service chose, and so to the same result of every job.
-/

namespace MetaTx

/-! ## Honest answers -/

/-- A key is the one that its signature of a digest recovers to under its own recovery id, and not
the one under the other id. -/
structure PrivateKey.IsRecovered (key : PrivateKey) (digest : Bytes) : Prop where
  own : ∀ sig, key.signDigest digest = .ok sig → sig.recover digest = .ok key.toPublic
  other : ∀ sig, key.signDigest digest = .ok sig →
    (Signature.mk sig.r sig.s (1 - sig.v)).recover digest ≠ .ok key.toPublic

/-- Bytes encode the scalars of a signature, with its `s` as it is or mirrored. -/
def Signature.IsEncodedBy (sig : Signature) (encoded : Bytes) : Prop :=
  encoded = Der.integerPair sig.r.toNat sig.s.toNat ∨
    encoded = Der.integerPair sig.r.toNat (Secp256k1.n - sig.s).toNat

/-- An answer to a request for a signature has the scalars that a key signs the digest with. -/
def PrivateKey.IsAnswered (key : PrivateKey) (digest : Bytes) (answer : Service.Answer) : Prop :=
  ∃ sig entries encoded, key.signDigest digest = .ok sig ∧ answer = .given entries ∧
    Value.get? "Signature" entries = some (.bytes encoded) ∧ sig.IsEncodedBy encoded

namespace ServiceKey

variable {key : PrivateKey} {digest encoded : Bytes} {sig : Signature}

theorem recoveryId?_of_signDigest (hsig : key.signDigest digest = .ok sig)
    (h : key.IsRecovered digest) :
    recoveryId? key.toPublic digest sig.r sig.s = some sig.v := by
  have hown := h.own sig hsig
  have hother := h.other sig hsig
  obtain ⟨r, s, v⟩ := sig
  rcases (PrivateKey.isRaw_of_signDigest hsig).v with hv | hv
  · obtain rfl : v = 0 := hv
    simp only [recoveryId?, List.find?_cons, hown, beq_self_eq_true]
  · obtain rfl : v = 1 := hv
    -- The id zero is tried first, and recovers to another key if to any.
    cases hrecover : (Signature.mk r s 0).recover digest with
    | error e => simp only [recoveryId?, List.find?_cons, hrecover, hown, beq_self_eq_true]
    | ok recovered =>
      have hne : (recovered == key.toPublic) = false := by
        rw [beq_eq_false_iff_ne]
        rintro rfl
        exact hother hrecover
      simp only [recoveryId?, List.find?_cons, hrecover, hne, hown, beq_self_eq_true]

/-- Both halves of the order are read as the signature of the key at hand. -/
theorem readSignature_of_signDigest (hsig : key.signDigest digest = .ok sig)
    (h : key.IsRecovered digest) (hencoded : sig.IsEncodedBy encoded) :
    readSignature key.toPublic digest encoded = .ok sig := by
  have hraw := PrivateKey.isRaw_of_signDigest hsig
  have hid := recoveryId?_of_signDigest hsig h
  have hr0 := hraw.r_nonneg
  have hrn := hraw.r_lt
  have hs0 := hraw.s_nonneg
  have hsle := hraw.s_le
  have hn := Secp256k1.n_eq_halfN
  have hfit : Secp256k1.n < Bytes.limit 32 := by decide
  have hr : (sig.r.toNat : Int) = sig.r := Int.toNat_of_nonneg hr0
  obtain ⟨s, hscalars, hlower⟩ : ∃ s : Nat, Der.signature encoded = .ok (sig.r.toNat, s) ∧
      Signature.lower s = sig.s := by
    rcases hencoded with rfl | rfl
    · refine ⟨sig.s.toNat, Der.signature_integerPair (by omega) (by omega), ?_⟩
      rw [Int.toNat_of_nonneg hs0]
      exact Signature.lower_of_le hsle
    · refine ⟨(Secp256k1.n - sig.s).toNat, Der.signature_integerPair (by omega) (by omega), ?_⟩
      rw [Int.toNat_of_nonneg (by omega)]
      exact (Signature.lower_sub sig.s).trans (Signature.lower_of_le hsle)
  rw [← hr, ← hlower] at hid
  rw [readSignature_eq hscalars hid, hr, hlower]

theorem outcome_signDigest_of_isAnswered (serviceKey : ServiceKey) {session : Session}
    {answer : Service.Answer} (hsig : key.signDigest digest = .ok sig)
    (h : key.IsRecovered digest) (hhead : session.answers.head? = some answer)
    (hanswer : key.IsAnswered digest answer) :
    (serviceKey.signDigest key.toPublic digest).outcome session =
      (.ok sig, session.asked (.sign serviceKey.keyId digest)) := by
  obtain ⟨sig', entries, encoded, hsig', rfl, hentry, hencoded⟩ := hanswer
  obtain rfl : sig = sig' := Except.ok.inj (hsig.symm.trans hsig')
  rw [outcome_signDigest hhead hentry, readSignature_of_signDigest hsig h hencoded]

end ServiceKey

/-! ## Jobs -/

namespace Signer

variable {key : PrivateKey} {chainId? : Option Int}

/-- What a backend is asked for depends on the chain only, and so does what is made of it. -/
theorem Job.request_congr (backend backend' : Backend) (job : Job) :
    job.request ⟨backend, chainId?⟩ = job.request ⟨backend', chainId?⟩ := by
  cases job <;> rfl

theorem Job.finish_congr (backend backend' : Backend) (sig : Signature) (job : Job) :
    job.finish ⟨backend, chainId?⟩ sig = job.finish ⟨backend', chainId?⟩ sig := by
  cases job <;> rfl

/-- A digest that is signed gives both signers the same result. -/
theorem exists_perform_eq (serviceKey : ServiceKey) {job : Job} {digest : Bytes} {session : Session}
    {answer : Service.Answer} (hrequest : job.request ⟨.held key, chainId?⟩ = .ok digest)
    (hrecovered : key.IsRecovered digest) (hhead : session.answers.head? = some answer)
    (hanswer : key.IsAnswered digest answer) :
    ∃ result, (∀ held, (job.perform ⟨.held key, chainId?⟩).outcome held = (result, held)) ∧
      (job.perform ⟨.service serviceKey key.toPublic, chainId?⟩).outcome session =
        (result, session.asked (.sign serviceKey.keyId digest)) := by
  obtain ⟨sig, -, -, hsig, -⟩ := id hanswer
  have hrequest' := (Job.request_congr (.service serviceKey key.toPublic) (.held key) job).trans
    hrequest
  have hservice := ServiceKey.outcome_signDigest_of_isAnswered serviceKey hsig
    hrecovered hhead hanswer
  refine ⟨job.finish ⟨.held key, chainId?⟩ sig, fun held => ?_, ?_⟩
  · have hheld : (Backend.sign (.held key) digest).outcome held = (.ok sig, held) := by
      rw [← hsig]
      exact Run.outcome_lift _ _
    exact Job.outcome_perform_signed hrequest hheld
  · rw [Job.finish_congr (.held key) (.service serviceKey key.toPublic)]
    exact Job.outcome_perform_signed hrequest' hservice

/-- **Backends are interchangeable.** A signer with a key at hand and a signer of the service do the
same jobs with the same results, be they signatures, transactions or errors. All that is asked of
the service is that it answers every digest that it is sent with the scalars that the key signs it
with, in either half of the order. -/
theorem performAll_interchangeable (serviceKey : ServiceKey) {jobs : List Job}
    {answers rest : List Service.Answer} {session : Session} (hanswers : session.answers = answers ++ rest)
    (honest : List.Forall₂ key.IsAnswered (requests ⟨.held key, chainId?⟩ jobs) answers)
    (hrecovered : ∀ digest ∈ requests ⟨.held key, chainId?⟩ jobs, key.IsRecovered digest) :
    ∃ results,
      (∀ held, (performAll ⟨.held key, chainId?⟩ jobs).outcome held = (.ok results, held)) ∧
      (performAll ⟨.service serviceKey key.toPublic, chainId?⟩ jobs).outcome session =
        (.ok results, { session with
          answers := rest
          requests := session.requests ++ (requests ⟨.held key, chainId?⟩ jobs).map
            (.sign serviceKey.keyId) }) := by
  induction jobs generalizing answers session with
  | nil =>
    cases honest
    obtain rfl : session.answers = rest := hanswers
    refine ⟨[], fun held => rfl, ?_⟩
    rw [outcome_performAll_nil]
    simp [requests]
  | cons job jobs ih =>
    cases hrequest : job.request ⟨.held key, chainId?⟩ with
    | error e =>
      -- Without a digest nothing is sent, so answers stay in step with digests.
      rw [requests_cons_error hrequest] at honest hrecovered ⊢
      obtain ⟨results, hheld, hservice⟩ := ih hanswers honest hrecovered
      have hrequest' := (Job.request_congr (.service serviceKey key.toPublic) (.held key) job).trans
        hrequest
      exact ⟨.error e :: results,
        fun held => outcome_performAll_cons (Job.outcome_perform_error hrequest) (hheld held),
        outcome_performAll_cons (Job.outcome_perform_error hrequest') hservice⟩
    | ok digest =>
      -- This job takes the first answer and leaves the others to the jobs behind it.
      rw [requests_cons_ok hrequest] at honest hrecovered ⊢
      obtain ⟨hdigest, hrecovered⟩ := List.forall_mem_cons.mp hrecovered
      obtain ⟨answer, others, hanswer, hothers, rfl⟩ := List.forall₂_cons_left_iff.mp honest
      have hhead : session.answers.head? = some answer := by rw [hanswers]; rfl
      have htail : (session.asked (.sign serviceKey.keyId digest)).answers = others ++ rest := by
        simp only [Session.asked, hanswers, List.cons_append, List.tail_cons]
      obtain ⟨result, hheld, hservice⟩ :=
        exists_perform_eq serviceKey hrequest hdigest hhead hanswer
      obtain ⟨results, hheldAll, hserviceAll⟩ := ih htail hothers hrecovered
      refine ⟨result :: results, fun held => outcome_performAll_cons (hheld held) (hheldAll held),
        (outcome_performAll_cons hservice hserviceAll).trans ?_⟩
      simp [Session.asked]

/-! ## A sample -/

theorem one_lt_order : 1 < Secp256k1.n := by decide

def leastKey : PrivateKey := ⟨1, Nat.one_pos, one_lt_order⟩

/-- Two signatures of the empty message, and a digest without bytes in between. -/
def sampleJobs : List Job := [.message [], .digest [], .message []]

/-- The digest of the empty message. -/
def emptyDigest : Bytes := [
  95, 53, 220, 233, 139, 164, 251, 162, 85, 48, 160, 38, 237, 128, 178, 206, 205, 170, 49, 9, 27,
  164, 149, 139, 153, 181, 46, 161, 208, 104, 173, 173]

/-- What the least key signs it with. -/
def emptySignature : Signature where
  r := 4862654685985756421863159791594098785042143478697703420033567108368825244373
  s := 2522219361334815941824623165168580566011928159786152602508195553821960370925
  v := 0

def answerOf (r s : Nat) : Service.Answer := .given [("Signature", .bytes (Der.integerPair r s))]

/-- One answer with the signature as it is, and one with its mirror. -/
def sampleAnswers : List Service.Answer := [
  answerOf emptySignature.r.toNat emptySignature.s.toNat,
  answerOf emptySignature.r.toNat (Secp256k1.n - emptySignature.s).toNat]

theorem requests_sample :
    requests ⟨.held leastKey, some 1⟩ sampleJobs = [emptyDigest, emptyDigest] := by
  have hdigest : Message.personalDigest [] = emptyDigest := by
    rw [Message.personalDigest, Keccak.Plain.keccak_eq]
    decide +kernel
  have hmessage : (Job.message []).request ⟨.held leastKey, some 1⟩ = .ok emptyDigest := by
    rw [Job.request, Job.hash, hdigest]
    rfl
  have hshort : (Job.digest []).request ⟨.held leastKey, some 1⟩ = .error (.digestLength 0) := rfl
  rw [sampleJobs, requests_cons_ok hmessage, requests_cons_error hshort, requests_cons_ok hmessage]
  rfl

theorem signDigest_leastKey : leastKey.signDigest emptyDigest = .ok emptySignature := by
  have hsome : (leastKey.signDigest emptyDigest).toOption = some emptySignature := by
    decide +kernel
  exact Except.toOption_eq_some_iff.mp hsome

theorem isRecovered_leastKey : leastKey.IsRecovered emptyDigest := by
  have hown : ServiceKey.recoveryId? leastKey.toPublic emptyDigest emptySignature.r
      emptySignature.s = some 0 := by
    decide +kernel
  have hother : ((Signature.mk emptySignature.r emptySignature.s 1).recover emptyDigest).toOption ≠
      some leastKey.toPublic := by
    decide +kernel
  refine ⟨fun sig hsig => ?_, fun sig hsig h => ?_⟩
  · obtain rfl : emptySignature = sig := Except.ok.inj (signDigest_leastKey.symm.trans hsig)
    exact (ServiceKey.recover_of_recoveryId? hown).2
  · obtain rfl : emptySignature = sig := Except.ok.inj (signDigest_leastKey.symm.trans hsig)
    exact hother (congrArg Except.toOption h)

theorem performAll_interchangeable_sample :
    ∃ results,
      (∀ held, (performAll ⟨.held leastKey, some 1⟩ sampleJobs).outcome held =
        (.ok results, held)) ∧
      (performAll ⟨.service ⟨"key", ServiceKey.defaultRegion⟩ leastKey.toPublic, some 1⟩
          sampleJobs).outcome { answers := sampleAnswers } =
        (.ok results, { requests := [.sign "key" emptyDigest, .sign "key" emptyDigest] }) := by
  have honest : List.Forall₂ leastKey.IsAnswered
      (requests ⟨.held leastKey, some 1⟩ sampleJobs) sampleAnswers := by
    rw [requests_sample]
    exact .cons ⟨emptySignature, _, _, signDigest_leastKey, rfl, rfl, .inl rfl⟩ <|
      .cons ⟨emptySignature, _, _, signDigest_leastKey, rfl, rfl, .inr rfl⟩ .nil
  have hrecovered : ∀ digest ∈ requests ⟨.held leastKey, some 1⟩ sampleJobs,
      leastKey.IsRecovered digest := by
    rw [requests_sample]
    simp only [List.mem_cons, List.not_mem_nil, or_false, or_self]
    rintro digest rfl
    exact isRecovered_leastKey
  have hanswers : ({ answers := sampleAnswers } : Session).answers = sampleAnswers ++ [] :=
    (List.append_nil sampleAnswers).symm
  have h := performAll_interchangeable ⟨"key", ServiceKey.defaultRegion⟩ hanswers honest hrecovered
  rw [requests_sample] at h
  exact h

end Signer

end MetaTx
