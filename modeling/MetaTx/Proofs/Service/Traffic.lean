import MetaTx.Proofs.Service.Session
import MetaTx.Proofs.Signer.Job

/-!
# What signing leaves in a session

A backend that holds its key leaves a session as it is. One of the key service sends one request
for a digest, whatever comes back for it, and takes one answer. Nothing is sent again, so requests
and answers can be counted along a run. Besides there may be notices.
-/

namespace MetaTx

open Service (Request)

/-! ## Sessions -/

namespace Session

/-- A session with more notices. -/
def noted (session : Session) (notices : List Notice) : Session :=
  { session with notices := session.notices ++ notices }

theorem noted_nil (session : Session) : session.noted [] = session := by
  simp only [noted, List.append_nil]

theorem noted_noted (session : Session) (first second : List Notice) :
    (session.noted first).noted second = session.noted (first ++ second) := by
  simp only [noted, List.append_assoc]

/-- Between two sessions some requests were sent, and for each of them one answer was taken. -/
structure Follows (before after : Session) (sent : List Request) : Prop where
  requests : after.requests = before.requests ++ sent
  answers : after.answers = before.answers.drop sent.length
  connections : after.connections = before.connections

theorem Follows.refl (session : Session) : session.Follows session [] :=
  ⟨(List.append_nil _).symm, rfl, rfl⟩

theorem Follows.trans {before between after : Session} {first second : List Request}
    (h : before.Follows between first) (h' : between.Follows after second) :
    before.Follows after (first ++ second) where
  requests := by rw [h'.requests, h.requests, List.append_assoc]
  answers := by rw [h'.answers, h.answers, List.drop_drop, List.length_append]
  connections := h'.connections.trans h.connections

theorem follows_noted (session : Session) (notices : List Notice) :
    session.Follows (session.noted notices) [] :=
  ⟨(List.append_nil _).symm, rfl, rfl⟩

theorem follows_asked (session : Session) (request : Request) :
    session.Follows (session.asked request) [request] :=
  ⟨rfl, List.drop_one.symm, rfl⟩

theorem outcome_notify (level : Level) (text : String) (session : Session) :
    (notify level text).outcome session = (.ok (), session.noted [⟨level, text⟩]) := rfl

/-- A notice that is left under a condition is all that is done before the rest. -/
theorem outcome_ite_notify {α : Type} (p : Prop) [Decidable p] (level : Level) (text : String)
    (rest : Run α) (session : Session) :
    (if p then (do notify level text; rest) else rest).outcome session =
      rest.outcome (session.noted (if p then [⟨level, text⟩] else [])) := by
  by_cases h : p
  · rw [if_pos h, if_pos h]
    exact Run.outcome_bind_ok (outcome_notify level text session)
  · rw [if_neg h, if_neg h, noted_nil]

/-! ## Requests -/

/-- A failure is reported with a notice at most. -/
theorem follows_report {α : Type} (request : Request) (failure : Except Fault Service.Failure)
    (session : Session) :
    session.Follows ((report request failure : Run α).outcome session).2 [] := by
  cases failure with
  | error fault => exact .refl session
  | ok failure =>
    rw [report]
    rw [Run.outcome_bind_ok (outcome_notify _ _ session)]
    split
    · exact follows_noted session _
    · exact follows_noted session _

theorem follows_ask (request : Request) (session : Session) :
    session.Follows ((ask request).outcome session).2 [request] := by
  have hasked := follows_asked session request
  rw [ask, Run.outcome_bind_ok (outcome_exchange request session)]
  cases session.answers.head? with
  | none => exact hasked
  | some answer =>
    cases answer with
    | given entries => exact hasked
    | refused response => exact hasked.trans (follows_report request _ _)
    | failed name details => exact hasked.trans (follows_report request _ _)

end Session

/-! ## Signing -/

/-- What is done behind a step without asking the service sends nothing more. -/
theorem Run.follows_bind {α β : Type} {r : Run α} {f : α → Run β} {session : Session}
    {requests : List Request} (h : session.Follows (r.outcome session).2 requests)
    (hf : ∀ a after, Session.Follows after ((f a).outcome after).2 []) :
    session.Follows ((r >>= f).outcome session).2 requests := by
  rcases hr : r.outcome session with ⟨e | a, after⟩
  · rw [hr] at h
    rw [Run.outcome_bind_error hr]
    exact h
  · rw [hr] at h
    rw [Run.outcome_bind_ok hr]
    exact List.append_nil requests ▸ h.trans (hf a after)

theorem Run.follows_bind_lift {α β : Type} {r : Run α} {f : α → Except Error β} {session : Session}
    {requests : List Request} (h : session.Follows (r.outcome session).2 requests) :
    session.Follows ((r >>= fun a => liftM (f a) : Run β).outcome session).2 requests :=
  follows_bind h fun _ after => .refl after

/-- What a backend sends to the key service for a digest. -/
def Backend.requests : Backend → Bytes → List Request
  | held _, _ => []
  | service key _, digest => [.sign key.keyId digest]

/-- However a signature comes out, its request is sent once. -/
theorem Backend.follows_sign (backend : Backend) (digest : Bytes) (session : Session) :
    session.Follows ((backend.sign digest).outcome session).2 (backend.requests digest) := by
  cases backend with
  | held key => exact .refl session
  | service key publicKey =>
    have hrequest := Run.follows_bind_lift (f := ServiceKey.entryBytes "Signature")
      (Session.follows_ask (.sign key.keyId digest) session)
    exact Run.follows_bind_lift (f := ServiceKey.readSignature publicKey digest) hrequest

theorem Signer.follows_signDigest (signer : Signer) {digest : Bytes}
    (h : digest.length = Error.digestWidth) (session : Session) :
    session.Follows ((signer.signDigest digest).outcome session).2
      (signer.backend.requests digest) := by
  have hchecked : checkDigest digest = .ok digest := if_neg (not_not_intro h)
  rw [signDigest_eq, hchecked]
  exact signer.backend.follows_sign digest session

end MetaTx
