import MetaTx.Proofs.Der.KeyInfo
import MetaTx.Proofs.Error
import MetaTx.Proofs.Service.PublicKey

/-!
# The health of a signer of the key service

A check of the health asks for the public key once and always comes to a verdict. The signer is
healthy if the answer gives its own key: the kind of key is the expected one or is not told, and the
bytes encode the point. Of the other answers, those that give no usable key at all leave a warning,
and those that give another key do not.
-/

namespace MetaTx

open Service (Answer Failure)

/-! ## Outcomes of a request -/

/-- How a request for a public key comes out. -/
inductive KeyOutcome
  /-- The service refused it, or it never got there. -/
  | failed (failure : Failure)
  /-- The service gave bytes, and perhaps told the kind of key. -/
  | given (spec? : Option Value) (encoded : Bytes)

namespace KeyOutcome

/-- A failure as clients report them. An account without the shape that all of them have, or with a
collection for its code, is none: a client fails on it before it can report it. -/
def ofFailure? : Except Fault Failure → Option KeyOutcome
  | .ok failure => if failure.isLookedUp then some (.failed failure) else none
  | .error _ => none

/-- The outcome that an answer stands for. One that gives no bytes for the key is none. -/
def ofAnswer? : Answer → Option KeyOutcome
  | .given entries =>
    match Value.get? "PublicKey" entries with
    | some (.bytes encoded) => some (.given (ServiceKey.spec? entries) encoded)
    | _ => none
  | .refused response => ofFailure? (Failure.ofResponse response)
  | .failed name details => ofFailure? (Failure.ofName name details)

/-- The bytes that were given are read as a key or refused as malformed, so that no algorithm is
met that is unknown. -/
def IsRead : KeyOutcome → Prop
  | failed _ => True
  | given _ encoded => Der.keyInfo? encoded ≠ some .unknown

/-- A key is given: its kind is the expected one or is not told, it is on the curve, and the bytes
encode it. -/
def Holds (publicKey : PublicKey) : KeyOutcome → Prop
  | failed _ => False
  | given spec? encoded =>
    (spec? = none ∨ spec? = some (.text RemoteCause.expectedSpec)) ∧
      Secp256k1.isOnCurve publicKey.x publicKey.y = true ∧
      ∃ form, encoded = Der.keyInfo form publicKey

variable {outcome : KeyOutcome} {answer : Answer} {session : Session} {publicKey found : PublicKey}

theorem isExpected_iff {spec : Value} :
    ServiceKey.isExpected spec = true ↔ spec = .text RemoteCause.expectedSpec := by
  unfold ServiceKey.isExpected
  split
  · simp
  · next hother =>
    refine ⟨fun h => ?_, fun h => absurd h (hother _)⟩
    cases h

/-- A key is given exactly if it is what the bytes are read as. -/
theorem holds_given_iff {spec? : Option Value} {encoded : Bytes} :
    (given spec? encoded).Holds publicKey ↔
      (∀ spec ∈ spec?, ServiceKey.isExpected spec = true) ∧
        Der.publicKey encoded = .ok publicKey := by
  rw [Holds, Der.publicKey_eq_ok_iff]
  refine and_congr_left fun _ => ?_
  cases spec? with
  | none => simp
  | some spec => simp [isExpected_iff]

theorem eq_of_holds (h : outcome.Holds publicKey) (h' : outcome.Holds found) :
    publicKey = found := by
  cases outcome with
  | failed failure => exact h.elim
  | given spec? encoded =>
    have hread := (holds_given_iff.mp h).2
    rw [(holds_given_iff.mp h').2] at hread
    exact (Except.ok.inj hread).symm

/-! ## What is fetched -/

/-- The bytes that are fetched, or the error that is raised. -/
def fetched (key : ServiceKey) : KeyOutcome → Except Error Bytes
  | failed failure => .error (.remote (.service .publicKey failure))
  | given none encoded => .ok encoded
  | given (some spec) encoded =>
    if ServiceKey.isExpected spec then .ok encoded
    else .error (.remote (.keySpec key.keyId spec))

/-- The notices that fetching leaves. -/
def notices (key : ServiceKey) : KeyOutcome → List Notice
  | failed failure =>
    let operation := Service.Operation.publicKey
    [⟨.error, s!"KMS {operation.name} error for {key.keyId}: {failure.text operation}"⟩]
  | given .. => []

theorem exists_failure_of_ofFailure? {reported : Except Fault Failure}
    (h : ofFailure? reported = some outcome) :
    ∃ failure, reported = .ok failure ∧ failure.isLookedUp = true ∧ outcome = .failed failure := by
  unfold ofFailure? at h
  split at h
  · next failure =>
    split at h
    · next hlooked => exact ⟨failure, rfl, hlooked, (Option.some.inj h).symm⟩
    · cases h
  · cases h

theorem outcome_report {reported : Except Fault Failure} (h : ofFailure? reported = some outcome)
    (key : ServiceKey) (session : Session) :
    (Session.report (.publicKey key.keyId) reported >>= fun entries =>
        liftM (key.readPublicKey entries) : Run Bytes).outcome session =
      (outcome.fetched key, session.noted (outcome.notices key)) := by
  obtain ⟨failure, rfl, hlooked, rfl⟩ := exists_failure_of_ofFailure? h
  refine Run.outcome_bind_error ?_
  rw [Session.report, Run.outcome_bind_ok (Session.outcome_notify _ _ session), if_pos hlooked]
  rfl

theorem exists_bytes_of_ofAnswer? {entries : List (String × Value)}
    (h : ofAnswer? (.given entries) = some outcome) :
    ∃ encoded, Value.get? "PublicKey" entries = some (.bytes encoded) ∧
      outcome = .given (ServiceKey.spec? entries) encoded := by
  simp only [ofAnswer?] at h
  split at h
  · next encoded hbytes => exact ⟨encoded, hbytes, (Option.some.inj h).symm⟩
  · cases h

theorem readPublicKey_eq {entries : List (String × Value)} {encoded : Bytes}
    (h : Value.get? "PublicKey" entries = some (.bytes encoded)) (key : ServiceKey) :
    key.readPublicKey entries = (given (ServiceKey.spec? entries) encoded).fetched key := by
  have hbytes : ServiceKey.entryBytes "PublicKey" entries = .ok encoded := by
    rw [ServiceKey.entryBytes, h]
  unfold ServiceKey.readPublicKey
  cases ServiceKey.spec? entries with
  | none => exact hbytes
  | some spec =>
    dsimp only [fetched]
    rw [hbytes]

/-- What is fetched depends on the outcome only. -/
theorem outcome_fetchPublicKey (hhead : session.answers.head? = some answer)
    (houtcome : ofAnswer? answer = some outcome) (key : ServiceKey) :
    key.fetchPublicKey.outcome session = (outcome.fetched key,
      (session.asked (.publicKey key.keyId)).noted (outcome.notices key)) := by
  cases answer with
  | given entries =>
    obtain ⟨encoded, hbytes, rfl⟩ := exists_bytes_of_ofAnswer? houtcome
    rw [ServiceKey.outcome_fetchPublicKey hhead, readPublicKey_eq hbytes, notices,
      Session.noted_nil]
  | refused response =>
    rw [ServiceKey.fetchPublicKey_eq,
      Run.outcome_bind_congr _ (Session.outcome_ask_refused hhead _)]
    exact outcome_report houtcome key _
  | failed name details =>
    rw [ServiceKey.fetchPublicKey_eq,
      Run.outcome_bind_congr _ (Session.outcome_ask_failed hhead _)]
    exact outcome_report houtcome key _

/-! ## The verdict -/

theorem fetched_given_of_isExpected {spec? : Option Value}
    (h : ∀ spec ∈ spec?, ServiceKey.isExpected spec = true) (key : ServiceKey) (encoded : Bytes) :
    (given spec? encoded).fetched key = .ok encoded := by
  cases spec? with
  | none => rfl
  | some spec => exact if_pos (h spec rfl)

theorem exists_fetched_given_eq_error {spec? : Option Value}
    (h : ¬∀ spec ∈ spec?, ServiceKey.isExpected spec = true) (key : ServiceKey) (encoded : Bytes) :
    ∃ cause, (given spec? encoded).fetched key = .error (.remote cause) := by
  cases spec? with
  | none => simp at h
  | some spec =>
    have hother : ¬ServiceKey.isExpected spec = true := by simpa using h
    exact ⟨_, if_neg hother⟩

/-- A key is compared, and nothing is said. -/
theorem verdict_of_holds (h : outcome.Holds found) (key : ServiceKey) (publicKey : PublicKey) :
    Signer.verdict publicKey (outcome.fetched key) = (.ok (found == publicKey), []) := by
  cases outcome with
  | failed failure => exact h.elim
  | given spec? encoded =>
    obtain ⟨hspec, hread⟩ := holds_given_iff.mp h
    rw [fetched_given_of_isExpected hspec, Signer.verdict, hread]

theorem exists_verdict_of_remote (cause : RemoteCause) (publicKey : PublicKey) :
    ∃ text, Signer.verdict publicKey (.error (.remote cause)) = (.ok false, [⟨.warning, text⟩]) :=
  ⟨_, rfl⟩

theorem exists_verdict_of_encoded {encoded : Bytes} (hread : Der.keyInfo? encoded ≠ some .unknown)
    (h : ∀ found, Der.publicKey encoded ≠ .ok found) (publicKey : PublicKey) :
    ∃ text, Signer.verdict publicKey (.ok encoded) = (.ok false, [⟨.warning, text⟩]) := by
  cases hkey : Der.publicKey encoded with
  | ok found => exact absurd hkey (h found)
  | error e =>
    obtain ⟨cause, rfl⟩ := Der.exists_signing_of_publicKey hkey hread
    simp only [Signer.verdict, hkey, Error.isA_signing, ↓reduceIte]
    exact ⟨_, rfl⟩

/-- Without a key there is a warning, whatever is in its place. -/
theorem exists_verdict_of_not_holds (hread : outcome.IsRead) (h : ∀ found, ¬outcome.Holds found)
    (key : ServiceKey) (publicKey : PublicKey) : ∃ text,
      Signer.verdict publicKey (outcome.fetched key) = (.ok false, [⟨.warning, text⟩]) := by
  cases outcome with
  | failed failure => exact exists_verdict_of_remote _ publicKey
  | given spec? encoded =>
    by_cases hspec : ∀ spec ∈ spec?, ServiceKey.isExpected spec = true
    · have hkey : ∀ found, Der.publicKey encoded ≠ .ok found :=
        fun found hfound => h found (holds_given_iff.mpr ⟨hspec, hfound⟩)
      rw [fetched_given_of_isExpected hspec]
      exact exists_verdict_of_encoded hread hkey publicKey
    · obtain ⟨cause, hcause⟩ := exists_fetched_given_eq_error hspec key encoded
      rw [hcause]
      exact exists_verdict_of_remote cause publicKey

end KeyOutcome

/-! ## The result -/

/-- The texts of the warnings among notices. -/
def Notice.warnings (notices : List Notice) : List String :=
  (notices.filter fun notice => notice.level = .warning).map Notice.text

/-- The texts of the warnings in a session. -/
def Session.warnings (session : Session) : List String := Notice.warnings session.notices

theorem Session.warnings_noted (session : Session) (notices : List Notice) :
    (session.noted notices).warnings = session.warnings ++ Notice.warnings notices := by
  simp only [warnings, Notice.warnings, noted, List.filter_append, List.map_append]

namespace Signer

open KeyOutcome

variable {answer : Answer} {outcome : KeyOutcome} {session : Session}

/-- What a check comes to is the verdict on what the outcome gives. -/
theorem outcome_healthCheck (hhead : session.answers.head? = some answer)
    (houtcome : ofAnswer? answer = some outcome) (key : ServiceKey) (publicKey : PublicKey)
    (chainId? : Option Int) :
    (healthCheck ⟨.service key publicKey, chainId?⟩).outcome session =
      ((verdict publicKey (outcome.fetched key)).1,
        (session.asked (.publicKey key.keyId)).noted
          (outcome.notices key ++ (verdict publicKey (outcome.fetched key)).2)) := by
  rw [← Session.noted_noted]
  exact outcome_checkService (outcome_fetchPublicKey hhead houtcome key) publicKey

/-- Fetching leaves no warnings of its own. -/
theorem warnings_fetched (session : Session) (key : ServiceKey) (outcome : KeyOutcome)
    (notices : List Notice) :
    ((session.asked (.publicKey key.keyId)).noted (outcome.notices key ++ notices)).warnings =
      session.warnings ++ Notice.warnings notices := by
  rw [Session.warnings_noted]
  cases outcome with
  | failed failure => rfl
  | given spec? encoded => rfl

/-- **The health of a signer.** Whatever a request for the public key comes to, a check ends with a
verdict, and it asks the service once. A signer is healthy exactly if its own key is given. If any
key is given, the verdict is whether it is the same one, and there is no warning. Otherwise, be it
for a failure, another kind of key or bytes that are no key of this curve, the signer is not healthy
and there is one more warning. All that is asked of the bytes is that they are either read or
refused. -/
theorem healthCheck_verdict (key : ServiceKey) (publicKey : PublicKey) (chainId? : Option Int)
    (hhead : session.answers.head? = some answer) (houtcome : ofAnswer? answer = some outcome)
    (hread : outcome.IsRead) :
    ∃ healthy after,
      (healthCheck ⟨.service key publicKey, chainId?⟩).outcome session = (.ok healthy, after) ∧
      session.Follows after [.publicKey key.keyId] ∧
      (healthy = true ↔ outcome.Holds publicKey) ∧
      (∀ found, outcome.Holds found →
        (healthy = true ↔ found = publicKey) ∧ after.warnings = session.warnings) ∧
      ((∀ found, ¬outcome.Holds found) →
        healthy = false ∧ ∃ text, after.warnings = session.warnings ++ [text]) := by
  have hcheck := outcome_healthCheck hhead houtcome key publicKey chainId?
  have hfollows := (session.follows_asked (.publicKey key.keyId)).trans (Session.follows_noted _
    (outcome.notices key ++ (verdict publicKey (outcome.fetched key)).2))
  have hwarnings := warnings_fetched session key outcome (verdict publicKey (outcome.fetched key)).2
  by_cases hkey : ∃ found, outcome.Holds found
  · obtain ⟨found, hfound⟩ := hkey
    have hverdict := verdict_of_holds hfound key publicKey
    rw [hverdict] at hcheck hfollows hwarnings
    refine ⟨found == publicKey, _, hcheck, hfollows, ?_, fun other hother => ?_,
      fun hnone => absurd hfound (hnone found)⟩
    · rw [beq_iff_eq]
      refine ⟨?_, eq_of_holds hfound⟩
      rintro rfl
      exact hfound
    · rw [← eq_of_holds hfound hother, beq_iff_eq]
      exact ⟨Iff.rfl, hwarnings.trans (List.append_nil _)⟩
  · have hnone := not_exists.mp hkey
    obtain ⟨text, hverdict⟩ := exists_verdict_of_not_holds hread hnone key publicKey
    rw [hverdict] at hcheck hfollows hwarnings
    refine ⟨false, _, hcheck, hfollows, ?_, fun found hfound => absurd hfound (hnone found),
      fun _ => ⟨rfl, text, hwarnings⟩⟩
    simp only [Bool.false_eq_true, hnone publicKey]

/-! ## Samples -/

/-- The generator of the curve, as the public key of a signer. -/
def ownKey : PublicKey := .ofPoint Secp256k1.g

theorem isOnCurve_ownKey : Secp256k1.isOnCurve ownKey.x ownKey.y = true := by decide

/-- A check of that signer, in a session with one answer to come. -/
def checkOn (answer : Answer) : Except Error Bool × Session :=
  (healthCheck ⟨.service ⟨"key", ServiceKey.defaultRegion⟩ ownKey, none⟩).outcome
    { answers := [answer] }

theorem healthCheck_verdict_samples :
    (∃ after, checkOn (.given [("KeySpec", .text "ECC_SECG_P256K1"),
        ("PublicKey", .bytes (Der.keyInfo .short ownKey))]) = (.ok true, after) ∧
      after.warnings = []) ∧
    (∃ after, checkOn (.given [("PublicKey", .bytes (Der.keyInfo .long .overOne))]) =
        (.ok false, after) ∧
      after.warnings = []) ∧
    (∃ after text, checkOn (.given [("KeySpec", .text "RSA_2048"),
        ("PublicKey", .bytes (Der.keyInfo .long ownKey))]) = (.ok false, after) ∧
      after.warnings = [text]) ∧
    (∃ after text, checkOn (.given [("PublicKey", .bytes [0x30])]) = (.ok false, after) ∧
      after.warnings = [text]) ∧
    ∃ after text, checkOn (.refused (.map [("Error",
        .map [("Code", .text "KMSInternalException")])])) = (.ok false, after) ∧
      after.warnings = [text] := by
  have hother : Secp256k1.isOnCurve PublicKey.overOne.x PublicKey.overOne.y = true := by decide
  have hread {form key} (h : Secp256k1.isOnCurve key.x key.y = true) :
      Der.keyInfo? (Der.keyInfo form key) ≠ some .unknown := by
    rw [Der.keyInfo?_keyInfo form h]
    simp
  have hmalformed : Der.publicKey [0x30] = .error (.signing .publicKeyDer) := rfl
  have told {answer outcome} (houtcome : ofAnswer? answer = some outcome)
      (hread : outcome.IsRead) :=
    healthCheck_verdict ⟨"key", ServiceKey.defaultRegion⟩ ownKey none
      (show ({ answers := [answer] } : Session).answers.head? = some answer from rfl) houtcome hread
  -- In the last three samples no key is given.
  have warned {answer outcome} (houtcome : ofAnswer? answer = some outcome)
      (hread : outcome.IsRead) (hnone : ∀ found, ¬outcome.Holds found) :
      ∃ after text, checkOn answer = (.ok false, after) ∧ after.warnings = [text] := by
    obtain ⟨healthy, after, hcheck, -, -, -, htold⟩ := told houtcome hread
    obtain ⟨rfl, text, hwarned⟩ := htold hnone
    exact ⟨after, text, hcheck, hwarned⟩
  refine ⟨?_, ?_, ?_, ?_, ?_⟩
  · have houtcome : ofAnswer? (.given [("KeySpec", .text "ECC_SECG_P256K1"),
        ("PublicKey", .bytes (Der.keyInfo .short ownKey))]) =
          some (.given (some (.text "ECC_SECG_P256K1")) (Der.keyInfo .short ownKey)) := rfl
    obtain ⟨healthy, after, hcheck, -, -, hheld, -⟩ := told houtcome (hread isOnCurve_ownKey)
    obtain ⟨hsame, hquiet⟩ := hheld ownKey ⟨.inr rfl, isOnCurve_ownKey, .short, rfl⟩
    exact ⟨after, hsame.mpr rfl ▸ hcheck, hquiet⟩
  · have houtcome : ofAnswer? (.given [("PublicKey", .bytes (Der.keyInfo .long .overOne))]) =
        some (.given none (Der.keyInfo .long .overOne)) := rfl
    obtain ⟨healthy, after, hcheck, -, -, hheld, -⟩ := told houtcome (hread hother)
    obtain ⟨hsame, hquiet⟩ := hheld .overOne ⟨.inl rfl, hother, .long, rfl⟩
    have hfalse : healthy = false := by
      rw [← Bool.not_eq_true, hsame]
      decide
    exact ⟨after, hfalse ▸ hcheck, hquiet⟩
  · have houtcome : ofAnswer? (.given [("KeySpec", .text "RSA_2048"),
        ("PublicKey", .bytes (Der.keyInfo .long ownKey))]) =
          some (.given (some (.text "RSA_2048")) (Der.keyInfo .long ownKey)) := rfl
    exact warned houtcome (hread isOnCurve_ownKey) fun found hfound =>
      absurd ((holds_given_iff.mp hfound).1 _ rfl) (by decide)
  · have houtcome : ofAnswer? (.given [("PublicKey", .bytes [0x30])]) =
        some (.given none [0x30]) := rfl
    refine warned houtcome nofun fun found hfound => ?_
    have hread := (holds_given_iff.mp hfound).2
    rw [hmalformed] at hread
    cases hread
  · have houtcome : ofAnswer? (.refused (.map [("Error",
        .map [("Code", .text "KMSInternalException")])])) =
          some (.failed (.refused (.text "KMSInternalException") (.text "Unknown") none)) := rfl
    exact warned houtcome trivial fun found hfound => hfound

end Signer

end MetaTx
