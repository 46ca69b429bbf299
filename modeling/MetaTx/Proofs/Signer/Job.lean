import MetaTx.Proofs.Except
import MetaTx.Proofs.Service.Session
import MetaTx.Signer

/-!
# Jobs of signers

Whatever a signer is asked for, it makes a digest, has its backend sign it, and makes something of
the signature. Only the step in the middle looks at where the key is. The other two depend on the
chain that the signer is bound to, and on nothing else that is the signer's own.
-/

namespace MetaTx

/-- The signature that the place of a key gives for a digest of the right width. -/
def Backend.sign : Backend → Bytes → Run Signature
  | held key, digest => key.signDigest digest
  | service key publicKey, digest => key.signDigest publicKey digest

namespace Signer

/-- What a signer can be asked for. -/
inductive Job
  | digest (bs : Bytes)
  | message (bs : Bytes)
  /-- Data with a digest of its own. -/
  | structured (given : Except Error Bytes)
  | typedData (payload : List (String × Value))
  | transaction (tx : Transaction)
  | send (tx : Transaction)

inductive Product
  | signature (sig : Signature)
  | sent (tx : SignedTransaction)

/-- A digest that is to be signed, which is refused unless it has the right width. -/
def checkDigest (digest : Bytes) : Except Error Bytes :=
  if digest.length ≠ Error.digestWidth then .error (.digestLength digest.length) else .ok digest

namespace Job

def perform (signer : Signer) : Job → Run Product
  | digest bs => .signature <$> signer.signDigest bs
  | message bs => .signature <$> signer.signMessage bs
  | structured given => .signature <$> signer.signStructured given
  | typedData payload => .signature <$> signer.signTypedData payload
  | transaction tx => .signature <$> signer.signTransaction tx
  | send tx => .sent <$> signer.send tx

def hash (signer : Signer) : Job → Except Error Bytes
  | digest bs => .ok bs
  | message bs => .ok (Message.personalDigest bs)
  | structured given => given
  | typedData payload => TypedData.digest payload
  | transaction tx | send tx => (signer.bind tx).signingHash

/-- The digest that the backend is asked to sign for a job. -/
def request (signer : Signer) (job : Job) : Except Error Bytes := do
  checkDigest (← job.hash signer)

/-- What is made of the signature of the backend. -/
def finish (signer : Signer) (sig : Signature) : Job → Except Error Product
  | digest _ => .ok (.signature sig)
  | message _ | structured _ | typedData _ => .ok (.signature sig.toMessage)
  | transaction tx => do
    let folded ← sig.toMessage.fold ((signer.bind tx).chainId.asInteger?.getD 0)
    return .signature folded
  | send tx => do
    let folded ← sig.toMessage.fold ((signer.bind tx).chainId.asInteger?.getD 0)
    return .sent (← (signer.bind tx).encodeLogged folded)

end Job

/-! ## One job -/

variable (signer : Signer)

/-- The chain is filled in once, however often it is asked for. -/
theorem bind_bind (tx : Transaction) : signer.bind (signer.bind tx) = signer.bind tx := by
  cases htx : tx.chainId with
  | null =>
    have hbind : signer.bind tx = tx.withChainId signer.chainValue := by rw [bind, htx]
    have hchain : (signer.bind tx).chainId = signer.chainValue := by
      rw [hbind]
      cases tx <;> rfl
    rw [bind]
    split
    · rw [hbind]
      cases tx <;> rfl
    · rfl
  | _ => simp only [bind, htx]

theorem signDigest_eq (digest : Bytes) :
    signer.signDigest digest = (do signer.backend.sign (← checkDigest digest)) := by
  obtain ⟨backend, chainId?⟩ := signer
  by_cases hwidth : digest.length ≠ Error.digestWidth
  · simp only [signDigest, checkDigest, if_pos hwidth]
    rfl
  · simp only [signDigest, checkDigest, if_neg hwidth]
    cases backend <;> rfl

/-- The fields are hashed once and laid out once, with the signature of the backend in between. -/
theorem send_eq (tx : Transaction) :
    signer.send tx = (do
      let hash ← (signer.bind tx).signingHash
      let sig ← signer.signDigest hash
      let folded ← sig.toMessage.fold ((signer.bind tx).chainId.asInteger?.getD 0)
      (signer.bind tx).encodeLogged folded) := by
  simp [send, signTransaction, signBound, bind_bind]

/-- A job is done in three steps. -/
theorem Job.perform_eq (job : Job) :
    job.perform signer = (do
      let digest ← job.request signer
      let sig ← signer.backend.sign digest
      job.finish signer sig) := by
  cases job with
  | digest bs => simp [perform, request, hash, finish, signDigest_eq, Run.lift_ok]
  | message bs => simp [perform, request, hash, finish, signMessage, signDigest_eq, Run.lift_ok]
  | structured given =>
    simp [perform, request, hash, finish, signStructured, signDigest_eq, Run.lift_ok]
  | typedData payload =>
    simp [perform, request, hash, finish, signTypedData, signStructured, signDigest_eq,
      Run.lift_ok]
  | transaction tx =>
    simp [perform, request, hash, finish, signTransaction, signBound, signDigest_eq]
  | send tx =>
    simp [perform, request, hash, finish, send_eq, signDigest_eq]

variable {signer} {session : Session}

theorem Job.outcome_perform_error {job : Job} {e : Error} (h : job.request signer = .error e) :
    (job.perform signer).outcome session = (.error e, session) := by
  rw [perform_eq, h]
  exact Run.outcome_bind_error (Run.outcome_lift _ _)

theorem Job.outcome_perform_signed {job : Job} {bs : Bytes} {sig : Signature} {after : Session}
    (h : job.request signer = .ok bs)
    (hsign : (signer.backend.sign bs).outcome session = (.ok sig, after)) :
    (job.perform signer).outcome session = (job.finish signer sig, after) := by
  rw [perform_eq, h]
  exact (Run.outcome_bind_ok (Run.outcome_lift _ _)).trans (Run.outcome_bind_ok hsign)

/-! ## Jobs one after another -/

/-- Has a signer do jobs. A failure ends its own job only. -/
def performAll (signer : Signer) (jobs : List Job) : Run (List (Except Error Product)) :=
  jobs.mapM fun job => Session.attempt (job.perform signer)

/-- The digests that the backend is asked to sign for jobs, in their order. -/
def requests (signer : Signer) (jobs : List Job) : List Bytes :=
  jobs.filterMap fun job => (job.request signer).toOption

theorem requests_cons_error {job : Job} {e : Error} (h : job.request signer = .error e)
    (jobs : List Job) : signer.requests (job :: jobs) = signer.requests jobs := by
  rw [requests, List.filterMap_cons, h]
  rfl

theorem requests_cons_ok {job : Job} {bs : Bytes} (h : job.request signer = .ok bs)
    (jobs : List Job) : signer.requests (job :: jobs) = bs :: signer.requests jobs := by
  rw [requests, List.filterMap_cons, h]
  rfl

theorem outcome_performAll_nil (session : Session) :
    (signer.performAll []).outcome session = (.ok [], session) := rfl

theorem outcome_performAll_cons {job : Job} {jobs : List Job} {after last : Session}
    {result : Except Error Product} {results : List (Except Error Product)}
    (hjob : (job.perform signer).outcome session = (result, after))
    (hjobs : (signer.performAll jobs).outcome after = (.ok results, last)) :
    (signer.performAll (job :: jobs)).outcome session = (.ok (result :: results), last) := by
  have hattempt := Run.outcome_attempt (job.perform signer) session
  rw [hjob] at hattempt
  rw [performAll, List.mapM_cons]
  refine (Run.outcome_bind_ok hattempt).trans ?_
  exact Run.outcome_bind_ok hjobs

end Signer

end MetaTx
