import MetaTx.Service.Key

/-!
# Outcomes of computations in a session

A computation that starts in a session ends with a value or an error, and with the session as it
is then. Outcomes are taken apart along the steps of a computation, so that results about
computations never look at how these are represented.
-/

namespace MetaTx

/-- How a computation ends that starts in a session. -/
def Run.outcome {α : Type} (r : Run α) (session : Session) : Except Error α × Session :=
  (ExceptT.run r).run session

namespace Run

variable {α β : Type} {session after : Session}

@[simp] theorem outcome_pure (a : α) (session : Session) :
    (pure a : Run α).outcome session = (.ok a, session) := rfl

@[simp] theorem outcome_throw (e : Error) (session : Session) :
    (throw e : Run α).outcome session = (.error e, session) := rfl

@[simp] theorem outcome_lift (x : Except Error α) (session : Session) :
    (liftM x : Run α).outcome session = (x, session) := rfl

theorem outcome_bind_ok {r : Run α} {f : α → Run β} {a : α}
    (h : r.outcome session = (.ok a, after)) :
    (r >>= f).outcome session = (f a).outcome after := by
  unfold outcome at h ⊢
  rw [ExceptT.run_bind, StateT.run_bind, h]
  rfl

theorem outcome_bind_error {r : Run α} {f : α → Run β} {e : Error}
    (h : r.outcome session = (.error e, after)) :
    (r >>= f).outcome session = (.error e, after) := by
  unfold outcome at h ⊢
  rw [ExceptT.run_bind, StateT.run_bind, h]
  rfl

/-- What is done behind a step depends on how the step ends, and on nothing else of it. -/
theorem outcome_bind_congr {r r' : Run α} {session' : Session} (f : α → Run β)
    (h : r.outcome session = r'.outcome session') :
    (r >>= f).outcome session = (r' >>= f).outcome session' := by
  rcases hr : r'.outcome session' with ⟨e | a, after⟩
  · rw [outcome_bind_error (h.trans hr), outcome_bind_error hr]
  · rw [outcome_bind_ok (h.trans hr), outcome_bind_ok hr]

/-- A computation that comes to its end has passed all of its steps. -/
theorem exists_of_outcome_bind {r : Run α} {f : α → Run β} {b : β} {last : Session}
    (h : (r >>= f).outcome session = (.ok b, last)) :
    ∃ a after, r.outcome session = (.ok a, after) ∧ (f a).outcome after = (.ok b, last) := by
  rcases hr : r.outcome session with ⟨e | a, after⟩
  · rw [outcome_bind_error hr] at h
    cases h
  · rw [outcome_bind_ok hr] at h
    exact ⟨a, after, rfl, h⟩

/-- A step outside of the session leaves it as it is. -/
theorem eq_of_outcome_lift {x : Except Error α} {result : Except Error α}
    (h : (liftM x : Run α).outcome session = (result, after)) : x = result ∧ session = after :=
  Prod.mk.inj h

theorem lift_ok (a : α) : (liftM (Except.ok a : Except Error α) : Run α) = pure a := rfl

theorem outcome_tryCatch_ok {r : Run α} {a : α} (h : r.outcome session = (.ok a, after))
    (handler : Error → Run α) : (tryCatch r handler).outcome session = (.ok a, after) := by
  unfold outcome ExceptT.run StateT.run at h ⊢
  simp only [tryCatch, tryCatchThe, MonadExceptOf.tryCatch, ExceptT.tryCatch, ExceptT.mk, bind,
    StateT.bind, h]
  rfl

theorem outcome_tryCatch_error {r : Run α} {e : Error} (h : r.outcome session = (.error e, after))
    (handler : Error → Run α) :
    (tryCatch r handler).outcome session = (handler e).outcome after := by
  unfold outcome ExceptT.run StateT.run at h ⊢
  simp only [tryCatch, tryCatchThe, MonadExceptOf.tryCatch, ExceptT.tryCatch, ExceptT.mk, bind,
    StateT.bind, h]

theorem outcome_map_ok {r : Run α} {a : α} (h : r.outcome session = (.ok a, after)) (f : α → β) :
    (f <$> r).outcome session = (.ok (f a), after) := by
  rw [map_eq_pure_bind, outcome_bind_ok h]
  rfl

theorem outcome_map_error {r : Run α} {e : Error} (h : r.outcome session = (.error e, after))
    (f : α → β) : (f <$> r).outcome session = (.error e, after) := by
  rw [map_eq_pure_bind, outcome_bind_error h]

/-- An error that is caught is a value like others. -/
theorem outcome_attempt (r : Run α) (session : Session) :
    (Session.attempt r).outcome session = (.ok (r.outcome session).1, (r.outcome session).2) := by
  unfold Session.attempt
  rcases hr : r.outcome session with ⟨e | a, after⟩
  · rw [outcome_tryCatch_error (outcome_map_error hr _)]
    rfl
  · rw [outcome_tryCatch_ok (outcome_map_ok hr _)]

end Run

/-! ## Requests -/

namespace Session

open Service

/-- A session once a request is sent, with its answer taken. -/
def asked (session : Session) (request : Request) : Session :=
  { session with requests := session.requests ++ [request], answers := session.answers.tail }

theorem outcome_exchange (request : Request) (session : Session) :
    (exchange request).outcome session = (.ok session.answers.head?, session.asked request) := rfl

/-- An answer with entries ends a request without a failure. -/
theorem outcome_ask_given {session : Session} {entries : List (String × Value)}
    (h : session.answers.head? = some (.given entries)) (request : Request) :
    (ask request).outcome session = (.ok entries, session.asked request) := by
  have hexchange := outcome_exchange request session
  rw [h] at hexchange
  exact Run.outcome_bind_ok hexchange

/-- A request that is refused ends with a report. -/
theorem outcome_ask_refused {session : Session} {response : Value}
    (h : session.answers.head? = some (.refused response)) (request : Request) :
    (ask request).outcome session =
      Run.outcome (report request (Failure.ofResponse response)) (session.asked request) := by
  have hexchange := outcome_exchange request session
  rw [h] at hexchange
  exact Run.outcome_bind_ok hexchange

/-- So does one that is never sent. -/
theorem outcome_ask_failed {session : Session} {name : String} {details : List (String × Value)}
    (h : session.answers.head? = some (.failed name details)) (request : Request) :
    (ask request).outcome session =
      Run.outcome (report request (Failure.ofName name details)) (session.asked request) := by
  have hexchange := outcome_exchange request session
  rw [h] at hexchange
  exact Run.outcome_bind_ok hexchange

end Session

end MetaTx
