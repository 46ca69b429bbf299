import MetaTx.Proofs.Der.KeyInfo
import MetaTx.Proofs.Service.PublicKey
import MetaTx.Proofs.Service.Signing

/-!
# Signers that share a key

Any number of signers may be made of one key of the service, and signers may be made of signers by
binding them to other chains. All of them talk to the service in one session. What it is asked can
be told from what the signers are used for: its public key for every signer that is made of the key
and for every check, and a signature for every digest that is found. Nothing is asked a second time,
whatever comes back, and no answer changes a signer that there is.
-/

namespace MetaTx

/-- A key of the service with the signers that share it, in the order in which they were made. -/
structure Handle where
  key : ServiceKey
  signers : List Signer := []
  session : Session := {}

namespace Handle

open Service (Answer Request)
open Signer (Job Product)

/-! ## Uses -/

/-- What can be done with a key and the signers that share it. -/
inductive Use
  /-- A signer is made of the key. -/
  | create (chainId? : Option Int)
  /-- A signer is made of another one, bound to another chain. -/
  | rebind (on : Nat) (chainId? : Option Int)
  | job (on : Nat) (job : Job)
  | check (on : Nat)

/-- What comes of a use. -/
inductive Result
  | made (result : Except Error Signer)
  | done (result : Except Error Product)
  | checked (result : Except Error Bool)
  /-- There is no such signer. -/
  | absent

/-- The signers that are made by a use. -/
def Result.signers : Result → List Signer
  | made (.ok signer) => [signer]
  | _ => []

/-- Asks one of the signers, if it is there. -/
def ask {α : Type} (h : Handle) (on : Nat) (tell : Except Error α → Result)
    (answer : Signer → Run α) : Result × Handle :=
  match h.signers[on]? with
  | none => (.absent, h)
  | some signer =>
    let (result, session) := (answer signer).outcome h.session
    (tell result, { h with session })

/-- Uses a key once. An error is what comes of the use, and ends nothing else. -/
def perform (h : Handle) : Use → Result × Handle
  | .create chainId? =>
    let (result, session) := (Signer.fetch h.key chainId?).outcome h.session
    (.made result, { h with signers := h.signers ++ (Result.made result).signers, session })
  | .rebind on chainId? =>
    match h.signers[on]? with
    | none => (.absent, h)
    | some signer =>
      let copy := signer.withChainId chainId?
      (.made (.ok copy), { h with signers := h.signers ++ [copy] })
  | .job on job => h.ask on .done fun signer => job.perform signer
  | .check on => h.ask on .checked Signer.healthCheck

def run (h : Handle) (uses : List Use) : Handle := uses.foldl (fun h use => (h.perform use).2) h

/-- A use, with what was there before and after it. -/
structure Entry where
  use : Use
  start : Handle
  result : Result
  finish : Handle

def entry (h : Handle) (use : Use) : Entry := ⟨use, h, (h.perform use).1, (h.perform use).2⟩

def history (h : Handle) : List Use → List Entry
  | [] => []
  | use :: rest => h.entry use :: (h.perform use).2.history rest

/-! ## What is asked -/

/-- What the service is asked for a job: the digest that is found is to be signed, if it has the
right width. -/
def jobRequests (h : Handle) (signer : Signer) (job : Job) : List Request :=
  match job.hash signer with
  | .ok digest => if digest.length = 32 then [.sign h.key.keyId digest] else []
  | .error _ => []

/-- What the service is asked in a use. -/
def requests (h : Handle) : Use → List Request
  | .create _ => [.publicKey h.key.keyId]
  | .rebind .. => []
  | .job on job => h.signers[on]?.toList.flatMap fun signer => h.jobRequests signer job
  | .check on => h.signers[on]?.toList.flatMap fun _ => [.publicKey h.key.keyId]

/-- All signers sign with the key. -/
def IsShared (h : Handle) : Prop :=
  ∀ signer ∈ h.signers, ∃ publicKey, signer.backend = .service h.key publicKey

/-- What a use did is accounted for. -/
structure Entry.IsAccounted (e : Entry) : Prop where
  follows : e.start.session.Follows e.finish.session (e.start.requests e.use)
  key : e.finish.key = e.start.key
  signers : e.finish.signers = e.start.signers ++ e.result.signers
  shared : e.finish.IsShared
  rebound : ∀ on chainId? signer, e.use = .rebind on chainId? → e.start.signers[on]? = some signer →
    ∃ copy, e.result.signers = [copy] ∧ copy.publicKey = signer.publicKey ∧
      copy.account = signer.account ∧ copy.chainId? = chainId?

variable {h : Handle}

/-! ## One use -/

/-- A job that fails before its digest is found asks nothing, and every other one asks once. -/
theorem follows_job {signer : Signer} {publicKey : PublicKey}
    (hbackend : signer.backend = .service h.key publicKey) (job : Job) :
    h.session.Follows ((job.perform signer).outcome h.session).2 (h.jobRequests signer job) := by
  have hfailed {e : Error} (he : job.request signer = .error e) :
      h.session.Follows ((job.perform signer).outcome h.session).2 [] := by
    rw [Job.outcome_perform_error he]
    exact .refl h.session
  unfold jobRequests
  cases hhash : job.hash signer with
  | error e => exact hfailed (by rw [Job.request, hhash]; rfl)
  | ok digest =>
    by_cases hwidth : digest.length = 32
    · have hrequest : job.request signer = .ok digest := by
        rw [Job.request, hhash]
        exact if_neg (not_not_intro hwidth)
      have hsign := signer.backend.follows_sign digest h.session
      rw [hbackend] at hsign
      simp only [if_pos hwidth, Job.perform_eq, hrequest, Run.lift_ok, pure_bind, hbackend]
      exact Run.follows_bind_lift hsign
    -- The width is checked before the backend is asked, so nothing is sent for such a digest.
    · simp only [if_neg hwidth]
      exact hfailed (by rw [Job.request, hhash]; exact if_pos hwidth)

theorem follows_check {signer : Signer} {publicKey : PublicKey}
    (hbackend : signer.backend = .service h.key publicKey) :
    h.session.Follows (signer.healthCheck.outcome h.session).2 [.publicKey h.key.keyId] := by
  rw [Signer.healthCheck, hbackend]
  exact Signer.follows_checkService h.key publicKey h.session

theorem IsShared.mem (hshared : h.IsShared) {on : Nat} {signer : Signer}
    (hsigner : h.signers[on]? = some signer) :
    ∃ publicKey, signer.backend = .service h.key publicKey :=
  hshared signer (List.mem_of_getElem? hsigner)

/-- One more signer with the key. -/
theorem IsShared.add (hshared : h.IsShared) {signer : Signer} {publicKey : PublicKey}
    (hbackend : signer.backend = .service h.key publicKey) (session : Session) :
    IsShared { h with signers := h.signers ++ [signer], session } := by
  intro found hfound
  rcases List.mem_append.mp hfound with hfound | hfound
  · exact hshared found hfound
  · rw [List.mem_singleton.mp hfound]
    exact ⟨publicKey, hbackend⟩

/-- A use that makes no signer. -/
theorem isAccounted_of_session {use : Use} {result : Result} {after : Session}
    (hshared : h.IsShared) (hperform : h.perform use = (result, { h with session := after }))
    (hresult : result.signers = []) (hfollows : h.session.Follows after (h.requests use))
    (hrebound : ∀ on chainId?, use = .rebind on chainId? → h.signers[on]? = none) :
    (h.entry use).IsAccounted := by
  unfold entry
  rw [hperform]
  refine ⟨hfollows, rfl, ?_, hshared, ?_⟩
  · rw [hresult, List.append_nil]
  · intro on chainId? signer huse hsigner
    rw [hrebound on chainId? huse] at hsigner
    cases hsigner

theorem ask_eq_of_outcome {α : Type} {on : Nat} {tell : Except Error α → Result}
    {answer : Signer → Run α} {signer : Signer} {result : Except Error α} {after : Session}
    (hsigner : h.signers[on]? = some signer)
    (houtcome : (answer signer).outcome h.session = (result, after)) :
    h.ask on tell answer = (tell result, { h with session := after }) := by
  simp only [ask, hsigner, houtcome]

/-- A use that asks one of the signers. -/
theorem isAccounted_of_ask {α : Type} {use : Use} {on : Nat} {tell : Except Error α → Result}
    {answer : Signer → Run α} {sent : Signer → List Request} (hshared : h.IsShared)
    (hperform : h.perform use = h.ask on tell answer)
    (hrequests : h.requests use = h.signers[on]?.toList.flatMap sent)
    (htell : ∀ result, (tell result).signers = [])
    (hfollows : ∀ signer publicKey, signer.backend = .service h.key publicKey →
      h.session.Follows ((answer signer).outcome h.session).2 (sent signer))
    (hrebound : ∀ on chainId?, use ≠ .rebind on chainId?) : (h.entry use).IsAccounted := by
  have hother : ∀ on chainId?, use = .rebind on chainId? → h.signers[on]? = none :=
    fun on chainId? huse => absurd huse (hrebound on chainId?)
  unfold ask at hperform
  cases hsigner : h.signers[on]? with
  | none =>
    rw [hsigner] at hperform hrequests
    exact isAccounted_of_session hshared hperform rfl (hrequests ▸ .refl h.session) hother
  | some signer =>
    rw [hsigner] at hperform hrequests
    obtain ⟨publicKey, hbackend⟩ := hshared.mem hsigner
    refine isAccounted_of_session hshared hperform (htell _) ?_ hother
    rw [hrequests, Option.toList_some, List.flatMap_singleton]
    exact hfollows signer publicKey hbackend

theorem isAccounted_create (hshared : h.IsShared) (chainId? : Option Int) :
    (h.entry (.create chainId?)).IsAccounted := by
  have hfollows := Signer.follows_fetch h.key chainId? h.session
  rcases hfetch : (Signer.fetch h.key chainId?).outcome h.session with ⟨e | signer, after⟩
  · rw [hfetch] at hfollows
    have hperform : h.perform (.create chainId?) =
        (.made (.error e), { h with session := after }) := by
      simp [perform, hfetch, Result.signers]
    exact isAccounted_of_session hshared hperform rfl hfollows (by simp)
  · rw [hfetch] at hfollows
    obtain ⟨publicKey, rfl⟩ := Signer.exists_publicKey_of_fetch hfetch
    unfold entry
    simp only [perform, hfetch]
    exact ⟨hfollows, rfl, rfl, hshared.add rfl after, by simp⟩

theorem isAccounted_rebind (hshared : h.IsShared) (on : Nat) (chainId? : Option Int) :
    (h.entry (.rebind on chainId?)).IsAccounted := by
  cases hsigner : h.signers[on]? with
  | none =>
    have hperform : h.perform (.rebind on chainId?) = (.absent, h) := by
      simp only [perform, hsigner]
    refine isAccounted_of_session hshared hperform rfl (.refl h.session) ?_
    rintro _ _ ⟨⟩
    exact hsigner
  | some signer =>
    obtain ⟨publicKey, hbackend⟩ := hshared.mem hsigner
    have hcopy : (signer.withChainId chainId?).backend = .service h.key publicKey := hbackend
    unfold entry
    simp only [perform, hsigner]
    refine ⟨.refl h.session, rfl, rfl, hshared.add hcopy h.session, ?_⟩
    rintro _ _ found ⟨⟩ hfound
    obtain rfl : signer = found := Option.some.inj (hsigner.symm.trans hfound)
    exact ⟨_, rfl, rfl, rfl, rfl⟩

theorem isAccounted_entry (hshared : h.IsShared) (use : Use) : (h.entry use).IsAccounted := by
  cases use with
  | create chainId? => exact isAccounted_create hshared chainId?
  | rebind on chainId? => exact isAccounted_rebind hshared on chainId?
  | job on job =>
    exact isAccounted_of_ask hshared rfl rfl (fun _ => rfl)
      (fun _ _ hbackend => follows_job hbackend job) (by simp)
  | check on =>
    exact isAccounted_of_ask hshared rfl rfl (fun _ => rfl)
      (fun _ _ hbackend => follows_check hbackend) (by simp)

/-! ## Runs -/

theorem isAccounted_history (hshared : h.IsShared) (uses : List Use) :
    ∀ e ∈ h.history uses, e.IsAccounted := by
  induction uses generalizing h with
  | nil => simp [history]
  | cons use rest ih =>
    have hfirst := isAccounted_entry hshared use
    exact List.forall_mem_cons.mpr ⟨hfirst, ih hfirst.shared⟩

/-- What a whole run asked, and which signers it made, is what its uses asked and made. -/
theorem follows_run (hshared : h.IsShared) (uses : List Use) :
    h.session.Follows (h.run uses).session
        ((h.history uses).flatMap fun e => e.start.requests e.use) ∧
      (h.run uses).signers = h.signers ++ (h.history uses).flatMap fun e => e.result.signers := by
  induction uses generalizing h with
  | nil => exact ⟨.refl h.session, (List.append_nil _).symm⟩
  | cons use rest ih =>
    have hfirst := isAccounted_entry hshared use
    obtain ⟨hfollows, hsigners⟩ := ih hfirst.shared
    refine ⟨hfirst.follows.trans hfollows, hsigners.trans ?_⟩
    rw [hfirst.signers, List.append_assoc]
    rfl

theorem isShared_run (hshared : h.IsShared) (uses : List Use) : (h.run uses).IsShared := by
  induction uses generalizing h with
  | nil => exact hshared
  | cons use rest ih => exact ih (isAccounted_entry hshared use).shared

/-- **The service is asked once in every use that needs it, and never again.** Along a run, of all
that is done with a key, and whatever is answered, the public key is asked for once for every signer
that is made of the key and for every check, and a signature once for every job whose digest is
found and has the right width. A signer that is bound to another chain has the same public key and
account, and signers stay as they were made. -/
theorem run_isAccounted (hshared : h.IsShared) (uses : List Use) :
    (∀ e ∈ h.history uses, e.IsAccounted) ∧
    h.session.Follows (h.run uses).session
      ((h.history uses).flatMap fun e => e.start.requests e.use) ∧
    (h.run uses).signers = h.signers ++ (h.history uses).flatMap (fun e => e.result.signers) ∧
    ∀ before after, uses = before ++ after → (h.run before).signers <+: (h.run uses).signers := by
  obtain ⟨hfollows, hsigners⟩ := follows_run hshared uses
  refine ⟨isAccounted_history hshared uses, hfollows, hsigners, ?_⟩
  rintro before after rfl
  have hrun : h.run (before ++ after) = (h.run before).run after := List.foldl_append
  rw [hrun, (follows_run (isShared_run hshared before) after).2]
  exact List.prefix_append _ _

/-! ## A sample -/

/-- An answer with the public key of the sample signer. -/
def sampleKeyAnswer : Answer :=
  .given [("PublicKey", .bytes (Der.keyInfo .long Signer.sampleKey))]

/-- A key without signers. The service will tell its public key, sign once, and tell the public key
once more. -/
def sample : Handle where
  key := ⟨"key", ServiceKey.defaultRegion⟩
  session :=
    { answers := [
        sampleKeyAnswer, .given [("Signature", .bytes Signer.sampleSignature)], sampleKeyAnswer] }

theorem isShared_sample : sample.IsShared := by
  intro signer hsigner
  cases hsigner

/-- A new signer and the same one on another chain, a digest that is too short, one that is signed
on the other chain, and a check. -/
def sampleUses : List Use := [
  .create (some 1), .rebind 0 (some 2), .job 0 (.digest []), .job 1 (.digest Signer.sampleDigest),
  .check 1]

/-- The sample key with signers, once the service was asked for something. -/
def sampleAfter (signers : List Signer) (requests : List Request) : Handle :=
  { sample with signers, session := requests.foldl Session.asked sample.session }

/-- The two signers that are made. -/
def sampleSigners : List Signer := [Signer.sample, Signer.sample.withChainId (some 2)]

theorem publicKey_sampleKey :
    Der.publicKey (Der.keyInfo .long Signer.sampleKey) = .ok Signer.sampleKey :=
  Der.publicKey_eq_ok_iff.mpr ⟨by decide +kernel, .long, rfl⟩

theorem outcome_fetchPublicKey_sample {session : Session}
    (hanswer : session.answers.head? = some sampleKeyAnswer) :
    sample.key.fetchPublicKey.outcome session =
      (.ok (Der.keyInfo .long Signer.sampleKey), session.asked (.publicKey "key")) :=
  ServiceKey.outcome_fetchPublicKey hanswer sample.key

theorem perform_create_sample : sample.perform (.create (some 1)) =
    (.made (.ok Signer.sample), sampleAfter [Signer.sample] [.publicKey "key"]) := by
  have hfetch : (Signer.fetch sample.key (some 1)).outcome sample.session =
      (.ok Signer.sample, sample.session.asked (.publicKey "key")) := by
    refine (Run.outcome_bind_ok (outcome_fetchPublicKey_sample rfl)).trans ?_
    rw [publicKey_sampleKey]
    rfl
  simp only [perform, hfetch]
  rfl

theorem perform_sign_sample : (sampleAfter sampleSigners [.publicKey "key"]).perform
    (.job 1 (.digest Signer.sampleDigest)) = (.done (.ok (.signature ⟨1, 1, 0⟩)),
      sampleAfter sampleSigners [.publicKey "key", .sign "key" Signer.sampleDigest]) := by
  have hsign : ((Signer.sample.withChainId (some 2)).signDigest Signer.sampleDigest).outcome
      (sampleAfter sampleSigners [.publicKey "key"]).session =
        (.ok ⟨1, 1, 0⟩, (sampleAfter sampleSigners
          [.publicKey "key", .sign "key" Signer.sampleDigest]).session) :=
    Signer.outcome_signDigest_ones rfl Signer.recoveryId?_sample rfl
  rw [perform]
  exact ask_eq_of_outcome rfl (Run.outcome_map_ok hsign Product.signature)

theorem perform_check_sample (digest : Bytes) :
    (sampleAfter sampleSigners [.publicKey "key", .sign "key" digest]).perform (.check 1) =
      (.checked (.ok true), sampleAfter sampleSigners
        [.publicKey "key", .sign "key" digest, .publicKey "key"]) := by
  rw [perform]
  refine ask_eq_of_outcome rfl ?_
  refine (Signer.outcome_checkService (outcome_fetchPublicKey_sample rfl) _).trans ?_
  simp only [Signer.verdict, publicKey_sampleKey, beq_self_eq_true]
  rfl

/-- Two signers, a refusal, a signature, and a key that is still held. -/
def sampleHistory : List Entry :=
  let created := sampleAfter [Signer.sample] [.publicKey "key"]
  let rebound := sampleAfter sampleSigners [.publicKey "key"]
  let signed := sampleAfter sampleSigners [.publicKey "key", .sign "key" Signer.sampleDigest]
  let checked := sampleAfter sampleSigners
    [.publicKey "key", .sign "key" Signer.sampleDigest, .publicKey "key"]
  [⟨.create (some 1), sample, .made (.ok Signer.sample), created⟩,
    ⟨.rebind 0 (some 2), created, .made (.ok (Signer.sample.withChainId (some 2))), rebound⟩,
    ⟨.job 0 (.digest []), rebound, .done (.error (.digestLength 0)), rebound⟩,
    ⟨.job 1 (.digest Signer.sampleDigest), rebound, .done (.ok (.signature ⟨1, 1, 0⟩)), signed⟩,
    ⟨.check 1, signed, .checked (.ok true), checked⟩]

theorem history_sample : sample.history sampleUses = sampleHistory := by
  have hrebind : (sampleAfter [Signer.sample] [.publicKey "key"]).perform (.rebind 0 (some 2)) =
      (.made (.ok (Signer.sample.withChainId (some 2))),
        sampleAfter sampleSigners [.publicKey "key"]) := rfl
  have hshort : (sampleAfter sampleSigners [.publicKey "key"]).perform (.job 0 (.digest [])) =
      (.done (.error (.digestLength 0)), sampleAfter sampleSigners [.publicKey "key"]) := rfl
  simp only [history, sampleUses, sampleHistory, entry, perform_create_sample, hrebind, hshort,
    perform_sign_sample, perform_check_sample]

theorem run_isAccounted_sample :
    sample.IsShared ∧ sample.history sampleUses = sampleHistory ∧
    (∀ e ∈ sampleHistory, e.IsAccounted) ∧
    (sample.run sampleUses).session.requests =
      [.publicKey "key", .sign "key" Signer.sampleDigest, .publicKey "key"] ∧
    (sample.run sampleUses).signers = [Signer.sample, Signer.sample.withChainId (some 2)] := by
  obtain ⟨haccounted, hfollows, hsigners, -⟩ := run_isAccounted isShared_sample sampleUses
  rw [history_sample] at haccounted hfollows hsigners
  exact ⟨isShared_sample, history_sample, haccounted, hfollows.requests.trans rfl,
    hsigners.trans rfl⟩

end Handle

end MetaTx
