import MetaTx.Proofs.Service.Traffic

/-!
# Public keys of the key service

The public key of a key is fetched when a signer is made, and again when it is asked whether it is
ready. Either way one request is sent. What is found in the answer decides whether a signer is made,
and what is said of its health, but it changes no signer that there is.
-/

namespace MetaTx

namespace ServiceKey

/-- The encoded public key in an answer. -/
def readPublicKey (key : ServiceKey) (entries : List (String × Value)) : Except Error Bytes :=
  match spec? entries with
  | none => entryBytes "PublicKey" entries
  | some spec =>
    if isExpected spec then entryBytes "PublicKey" entries
    else .error (.remote (.keySpec key.keyId spec))

theorem fetchPublicKey_eq (key : ServiceKey) : key.fetchPublicKey =
    Session.ask (.publicKey key.keyId) >>= fun entries => liftM (key.readPublicKey entries) := by
  unfold fetchPublicKey
  refine congrArg _ (funext fun entries => ?_)
  unfold readPublicKey
  cases spec? entries with
  | none => rfl
  | some spec =>
    cases hexpected : isExpected spec with
    | true => simp [hexpected]
    | false => simp [hexpected]; rfl

/-- An answer with entries ends as the public key in them is read. -/
theorem outcome_fetchPublicKey {session : Session} {entries : List (String × Value)}
    (hanswer : session.answers.head? = some (.given entries)) (key : ServiceKey) :
    key.fetchPublicKey.outcome session =
      (key.readPublicKey entries, session.asked (.publicKey key.keyId)) := by
  rw [fetchPublicKey_eq]
  exact Run.outcome_bind_ok (Session.outcome_ask_given hanswer _)

/-- A public key is fetched with one request. -/
theorem follows_fetchPublicKey (key : ServiceKey) (session : Session) :
    session.Follows (key.fetchPublicKey.outcome session).2 [.publicKey key.keyId] := by
  rw [fetchPublicKey_eq]
  exact Run.follows_bind_lift (Session.follows_ask (.publicKey key.keyId) session)

end ServiceKey

namespace Signer

/-! ## Making signers -/

theorem follows_fetch (key : ServiceKey) (chainId? : Option Int) (session : Session) :
    session.Follows ((fetch key chainId?).outcome session).2 [.publicKey key.keyId] :=
  Run.follows_bind (key.follows_fetchPublicKey session) fun encoded after =>
    Run.follows_bind (r := liftM (Der.publicKey encoded)) (.refl after) fun _ last => .refl last

theorem exists_publicKey_of_fetch {key : ServiceKey} {chainId? : Option Int} {signer : Signer}
    {session after : Session} (h : (fetch key chainId?).outcome session = (.ok signer, after)) :
    ∃ publicKey, signer = ⟨.service key publicKey, chainId?⟩ := by
  obtain ⟨encoded, between, -, hrest⟩ := Run.exists_of_outcome_bind h
  obtain ⟨publicKey, last, -, hsigner⟩ := Run.exists_of_outcome_bind hrest
  cases hsigner
  exact ⟨publicKey, rfl⟩

/-! ## Health -/

/-- What is said of the health of a signer, and with which notices, by what was fetched. -/
def verdict (publicKey : PublicKey) : Except Error Bytes → Except Error Bool × List Notice
  | .error (.remote cause) =>
    (.ok false, [⟨.warning, "KMS health check failed: " ++ cause.message⟩])
  | .error e => (.error e, [])
  | .ok encoded =>
    match Der.publicKey encoded with
    | .ok found => (.ok (found == publicKey), [])
    | .error e =>
      if e.isA .signing then
        (.ok false, [⟨.warning, "KMS health check got an unusable public key: " ++ e.message⟩])
      else (.error e, [])

/-- A failure of the service is noted, and other errors are left to the caller. -/
def catchRemote : Error → Run (Option Bytes)
  | .remote cause => do
    Session.notify .warning ("KMS health check failed: " ++ cause.message)
    return none
  | e => throw e

theorem outcome_checkService {key : ServiceKey} {session after : Session}
    {fetched : Except Error Bytes} (h : key.fetchPublicKey.outcome session = (fetched, after))
    (publicKey : PublicKey) : (checkService key publicKey).outcome session =
      ((verdict publicKey fetched).1, after.noted (verdict publicKey fetched).2) := by
  have hquiet := (Session.noted_nil after).symm
  unfold checkService
  cases fetched with
  | error e =>
    have hcaught := Run.outcome_tryCatch_error (Run.outcome_map_error h some) catchRemote
    cases e with
    | remote cause => exact Run.outcome_bind_ok hcaught
    | _ => exact (Run.outcome_bind_error hcaught).trans (congrArg _ hquiet)
  | ok encoded =>
    have hcaught := Run.outcome_tryCatch_ok (Run.outcome_map_ok h some) catchRemote
    refine (Run.outcome_bind_ok hcaught).trans ?_
    simp only [verdict]
    cases Der.publicKey encoded with
    | ok found => exact congrArg _ hquiet
    | error e =>
      dsimp only
      split
      · exact Run.outcome_bind_ok (Session.outcome_notify _ _ after)
      · exact congrArg _ hquiet

/-- The health of a signer is checked with one request. -/
theorem follows_checkService (key : ServiceKey) (publicKey : PublicKey) (session : Session) :
    session.Follows ((checkService key publicKey).outcome session).2
      [.publicKey key.keyId] := by
  have hfetched := key.follows_fetchPublicKey session
  rcases hfetch : key.fetchPublicKey.outcome session with ⟨fetched, after⟩
  rw [hfetch] at hfetched
  rw [outcome_checkService hfetch]
  exact hfetched.trans (after.follows_noted _)

end Signer

end MetaTx
