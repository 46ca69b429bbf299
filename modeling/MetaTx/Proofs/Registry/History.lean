import Mathlib.Data.List.DropRight
import MetaTx.Proofs.Registry.Interleaving

/-!
# Calls for the signer one after the other

Calls for the signer or for a report on it follow each other, with any settings and whatever the key
service answers, and the signer is forgotten now and then. The signer that is kept can be told from
the calls alone: it is what the first call since the last reset obtained, from the settings of that
call. Later calls are told the same signer whatever their own settings are, and calls that obtain
nothing change nothing.

A report looks at the health of the signer once the signer is obtained. If that look fails there is
no report, but the signer stays: such a call obtains a signer like others.
-/

namespace MetaTx

/-- The signer that settings make by themselves, with no other one in the way. -/
def Settings.makeSigner (settings : Settings) (around : Surroundings) : Run Signer := do
  let choice ← settings.choice
  (Value.int settings.chainId).log
  match choice with
  | .service => Signer.ofService (← settings.serviceKey around) (some settings.chainId)
  | .held => return .ofKey (← settings.localKey around) (some settings.chainId)

namespace Registry

/-! ## Calls -/

/-- What a call asks for. -/
inductive Purpose
  | signer
  | report

/-- What is asked of a process. Settings that are not given are read from the surroundings. -/
inductive Call
  | ask (purpose : Purpose) (given? : Option Settings) (around : Surroundings)
  | reset

/-- What a call comes to. -/
inductive Answer
  | signer (stored : Stored)
  /-- The signer was obtained, and this came of the report. -/
  | report (stored : Stored) (outcome : Except Error Report)
  /-- No signer was obtained. -/
  | refused (e : Error)
  | forgotten

def Answer.obtained? : Answer → Option Stored
  | .signer stored | .report stored _ => some stored
  | .refused _ | .forgotten => none

/-- What is told of a signer that is obtained. -/
def Purpose.tell (purpose : Purpose) (stored : Stored) (session : Session) : Answer × Session :=
  match purpose with
  | .signer => (.signer stored, session)
  | .report => ((Registry.report stored).outcome session).map (Answer.report stored) id

/-- A process between two calls. -/
structure World where
  registry : Registry := {}
  session : Session := {}

/-- A call with what it comes to, and the process before and behind it. -/
structure Entry where
  call : Call
  start : World
  answer : Answer
  finish : World

namespace World

def perform (w : World) : Call → Answer × World
  | .reset => (.forgotten, { w with registry := w.registry.reset })
  | .ask purpose given? around =>
    match (w.registry.request given? around).outcome w.session with
    | (.ok (.ok stored, registry), session) =>
      (purpose.tell stored session).map id (World.mk registry)
    | (.ok (.error e, registry), session) => (.refused e, ⟨registry, session⟩)
    -- This does not happen, because what ends a request is one of its values.
    | (.error e, session) => (.refused e, { w with session })

def entry (w : World) (call : Call) : Entry := ⟨call, w, (w.perform call).1, (w.perform call).2⟩

/-- Calls one after the other. -/
def history (w : World) : List Call → List Entry
  | [] => []
  | call :: calls => w.entry call :: (w.perform call).2.history calls

end World

/-! ## The signer that calls leave -/

def Entry.isReset (e : Entry) : Bool :=
  match e.call with
  | .reset => true
  | .ask .. => false

/-- The last calls up to a reset. -/
def sinceReset (past : List Entry) : List Entry := past.rtakeWhile fun e => !e.isReset

/-- The first call since the last reset that obtained a signer. -/
def maker? (past : List Entry) : Option Entry :=
  (sinceReset past).find? fun e => e.answer.obtained?.isSome

/-- The signer that it obtained. -/
def kept? (past : List Entry) : Option Stored := (maker? past).bind fun e => e.answer.obtained?

theorem kept?_nil : kept? [] = none := rfl

theorem maker?_concat_of_reset {e : Entry} (h : e.isReset = true) (past : List Entry) :
    maker? (past ++ [e]) = none := by
  rw [maker?, sinceReset, List.rtakeWhile_concat_neg _ _ _ (by simp [h]), List.find?_nil]

theorem maker?_concat_of_ask {e : Entry} (h : e.isReset = false) (past : List Entry) :
    maker? (past ++ [e]) =
      (maker? past).or (if e.answer.obtained?.isSome then some e else none) := by
  rw [maker?, sinceReset, List.rtakeWhile_concat_pos _ _ _ (by simp [h]), List.find?_append,
    maker?, sinceReset]
  cases hsome : e.answer.obtained?.isSome <;> simp [List.find?, hsome]

theorem obtained?_of_maker? {past : List Entry} {e : Entry} (h : maker? past = some e) :
    ∃ stored, e.answer.obtained? = some stored ∧ kept? past = some stored := by
  have hsome := List.find?_some h
  obtain ⟨stored, hstored⟩ := Option.isSome_iff_exists.mp hsome
  refine ⟨stored, hstored, ?_⟩
  rw [kept?, h]
  exact hstored

theorem kept?_of_maker?_eq_none {past : List Entry} (h : maker? past = none) :
    kept? past = none := by
  rw [kept?, h, Option.bind_none]

theorem kept?_concat_of_reset {e : Entry} (h : e.isReset = true) (past : List Entry) :
    kept? (past ++ [e]) = none := by
  rw [kept?, maker?_concat_of_reset h, Option.bind_none]

theorem kept?_concat_of_ask {e : Entry} (h : e.isReset = false) (past : List Entry) :
    kept? (past ++ [e]) = (kept? past).or e.answer.obtained? := by
  cases hmaker : maker? past with
  | some maker =>
    obtain ⟨stored, hstored, hkept⟩ := obtained?_of_maker? hmaker
    rw [hkept, kept?, maker?_concat_of_ask h, hmaker]
    exact hstored
  | none =>
    rw [kept?_of_maker?_eq_none hmaker, kept?, maker?_concat_of_ask h, hmaker, Option.none_or,
      Option.none_or]
    cases hobtained : e.answer.obtained? with
    | none => rfl
    | some stored => exact hobtained

/-! ## Single calls -/

section Single

variable {r informed : Registry} {purpose : Purpose} {given? : Option Settings}
  {settings : Settings} {around : Surroundings} {signer : Signer} {stored : Stored}
  {session after : Session}

theorem current?_of_settings (h : r.settings given? around = .ok (settings, informed)) :
    informed.current? = r.current? := by
  rw [Registry.settings] at h
  cases hgiven : given?.or r.settings? with
  | some own =>
    rw [hgiven] at h
    cases h
    rfl
  | none =>
    rw [hgiven] at h
    obtain ⟨own, -, h⟩ := Except.bind_eq_ok_iff.mp h
    cases h
    rfl

theorem chainId?_of_makeSigner
    (h : (settings.makeSigner around).outcome session = (.ok signer, after)) :
    signer.chainId? = some settings.chainId := by
  unfold Settings.makeSigner at h
  obtain ⟨choice, middle, -, h⟩ := Run.exists_of_outcome_bind h
  obtain ⟨-, between, -, h⟩ := Run.exists_of_outcome_bind h
  cases choice with
  | held =>
    obtain ⟨key, last, -, h⟩ := Run.exists_of_outcome_bind h
    cases h
    rfl
  | service =>
    obtain ⟨key, last, -, h⟩ := Run.exists_of_outcome_bind h
    obtain ⟨_, _, -, h⟩ := Run.exists_of_outcome_bind h
    obtain ⟨_, _, -, h⟩ := Run.exists_of_outcome_bind h
    obtain ⟨_, _, -, h⟩ := Run.exists_of_outcome_bind h
    cases h
    rfl

/-- A call that finds no signer stores the one that its settings make. -/
theorem outcome_get_of_none (h : r.current? = none) (settings : Settings) (around : Surroundings)
    (session : Session) :
    (r.get settings around).outcome session =
      (do return r.store (← settings.makeSigner around) : Run (Stored × Registry)).outcome
        session := by
  unfold get begin Settings.makeSigner
  rw [h]
  cases settings.choice with
  | error e => rfl
  | ok choice =>
    cases (Value.int settings.chainId).log with
    | error e => rfl
    | ok _ =>
      cases choice with
      | held => cases settings.localKey around <;> rfl
      | service => cases settings.serviceKey around <;> rfl

theorem request_of_current (h : r.current? = some stored) (given? : Option Settings)
    (around : Surroundings) :
    r.request given? around = pure (.ok stored, r) := by
  rw [request, h]

theorem outcome_request_of_unread {e : Error} (h : r.current? = none)
    (hsettings : r.settings given? around = .error e) (session : Session) :
    (r.request given? around).outcome session = (.ok (.error e, r), session) := by
  rw [request, h, hsettings]
  rfl

theorem outcome_request_of_settings (h : r.current? = none)
    (hsettings : r.settings given? around = .ok (settings, informed)) (session : Session) :
    (r.request given? around).outcome session =
      match (settings.makeSigner around).outcome session with
      | (.ok signer, after) =>
        (.ok (.ok (informed.store signer).1, (informed.store signer).2), after)
      | (.error e, after) => (.ok (.error e, informed), after) := by
  have hnone : informed.current? = none := (current?_of_settings hsettings).trans h
  have hattempt := Run.outcome_attempt (informed.get settings around) session
  rw [outcome_get_of_none hnone] at hattempt
  rw [request, h, hsettings]
  rcases hmake : (settings.makeSigner around).outcome session with ⟨e | signer, after⟩
  · rw [Run.outcome_bind_error hmake] at hattempt
    exact Run.outcome_bind_ok hattempt
  · rw [Run.outcome_bind_ok hmake] at hattempt
    exact Run.outcome_bind_ok hattempt

/-- How a call ends in a process that keeps a signer, or none. -/
inductive Ends (w : World) : Option Stored → Call → Answer → World → Prop
  | reset {found? : Option Stored} :
    Ends w found? .reset .forgotten { w with registry := w.registry.reset }
  /-- A signer is kept. Neither the settings nor the surroundings count, and nothing happens but
  the look at the health of the signer that a report takes. -/
  | kept {stored : Stored} {purpose : Purpose} {given? : Option Settings}
      {around : Surroundings} :
    Ends w (some stored) (.ask purpose given? around) (purpose.tell stored w.session).1
      { w with session := (purpose.tell stored w.session).2 }
  /-- The settings cannot be read. -/
  | unread {purpose : Purpose} {given? : Option Settings} {around : Surroundings} {e : Error}
      (settings : w.registry.settings given? around = .error e) :
    Ends w none (.ask purpose given? around) (.refused e) w
  /-- The settings make no signer. -/
  | failed {purpose : Purpose} {given? : Option Settings} {around : Surroundings}
      {own : Settings} {informed : Registry} {e : Error} {after : Session}
      (settings : w.registry.settings given? around = .ok (own, informed))
      (made : (own.makeSigner around).outcome w.session = (.error e, after)) :
    Ends w none (.ask purpose given? around) (.refused e) ⟨informed, after⟩
  /-- The settings make a signer, which is kept from then on. -/
  | made {purpose : Purpose} {given? : Option Settings} {around : Surroundings}
      {own : Settings} {informed : Registry} {signer : Signer} {after : Session}
      (settings : w.registry.settings given? around = .ok (own, informed))
      (made : (own.makeSigner around).outcome w.session = (.ok signer, after)) :
    Ends w none (.ask purpose given? around)
      (purpose.tell (informed.store signer).1 after).1
      ⟨(informed.store signer).2, (purpose.tell (informed.store signer).1 after).2⟩

theorem World.ends_perform (w : World) (call : Call) :
    Ends w w.registry.current? call (w.perform call).1 (w.perform call).2 := by
  cases call with
  | reset => exact .reset
  | ask purpose given? around =>
    cases hcurrent : w.registry.current? with
    | some stored =>
      have hperform : w.perform (.ask purpose given? around) =
          (purpose.tell stored w.session).map id (World.mk w.registry) := by
        rw [perform, request_of_current hcurrent, Run.outcome_pure]
      rw [hperform]
      exact .kept
    | none =>
      cases hsettings : w.registry.settings given? around with
      | error e =>
        have hperform : w.perform (.ask purpose given? around) = (.refused e, w) := by
          rw [perform, outcome_request_of_unread hcurrent hsettings]
        rw [hperform]
        exact .unread hsettings
      | ok read =>
        obtain ⟨own, informed⟩ := read
        have hrequest := outcome_request_of_settings hcurrent hsettings w.session
        rcases hmake : (own.makeSigner around).outcome w.session with ⟨e | signer, after⟩
        · have hperform : w.perform (.ask purpose given? around) =
              (.refused e, ⟨informed, after⟩) := by
            rw [perform, hrequest, hmake]
          rw [hperform]
          exact .failed hsettings hmake
        · have hperform : w.perform (.ask purpose given? around) =
              (purpose.tell (informed.store signer).1 after).map id
                (World.mk (informed.store signer).2) := by
            rw [perform, hrequest, hmake]
          rw [hperform]
          exact .made hsettings hmake

@[simp] theorem Purpose.obtained?_tell (purpose : Purpose) (stored : Stored) (session : Session) :
    (purpose.tell stored session).1.obtained? = some stored := by
  cases purpose <;> rfl

/-- A report is of the signer that it is made on. -/
theorem report_of_outcome {report : Report}
    (h : (Registry.report stored).outcome session = (.ok report, after)) :
    report.account = stored.signer.account ∧ report.chainId? = stored.signer.chainId? := by
  obtain ⟨isHealthy, middle, -, h⟩ := Run.exists_of_outcome_bind h
  cases h
  exact ⟨rfl, rfl⟩

theorem Purpose.report_of_tell {other : Stored} {report : Report}
    (h : (purpose.tell stored session).1 = .report other (.ok report)) :
    report.account = other.signer.account ∧ report.chainId? = other.signer.chainId? := by
  cases purpose with
  | signer => cases h
  | report =>
    obtain ⟨rfl, houtcome⟩ := Answer.report.inj h
    exact report_of_outcome (Prod.ext houtcome rfl)

variable {w last : World} {found? : Option Stored} {call : Call} {answer : Answer}

theorem Ends.answer_of_reset (h : Ends w found? .reset answer last) : answer = .forgotten := by
  cases h
  rfl

theorem Ends.current?_of_reset (h : Ends w found? .reset answer last) :
    last.registry.current? = none := by
  cases h
  rfl

/-- A call keeps the signer that is kept, or else the one that it obtains. -/
theorem Ends.current?_of_ask
    (h : Ends w w.registry.current? (.ask purpose given? around) answer last) :
    last.registry.current? = w.registry.current?.or answer.obtained? := by
  generalize hcurrent : w.registry.current? = found? at h
  cases h with
  | kept => exact hcurrent
  | unread => exact hcurrent
  | failed settings => exact (current?_of_settings settings).trans hcurrent
  | made => rw [Purpose.obtained?_tell, Option.none_or, store]

theorem Ends.obtained?_of_kept
    (h : Ends w (some stored) (.ask purpose given? around) answer last) :
    answer.obtained? = some stored := by
  cases h
  exact purpose.obtained?_tell stored w.session

/-- What a call obtains without a kept signer is what its own settings make. -/
theorem Ends.obtained?_of_given
    (h : Ends w none (.ask purpose (some settings) around) answer last) :
    answer.obtained?.map Stored.signer =
      ((settings.makeSigner around).outcome w.session).1.toOption := by
  cases h with
  | unread hsettings => cases hsettings
  | failed hsettings hmake =>
    cases hsettings
    rw [hmake]
    rfl
  | made hsettings hmake =>
    cases hsettings
    rw [hmake, Purpose.obtained?_tell]
    rfl

theorem Ends.current?_of_refused {e : Error}
    (h : Ends w w.registry.current? call (.refused e) last) :
    last.registry.current? = w.registry.current? := by
  cases call with
  | reset => cases h.answer_of_reset
  | ask purpose given? around =>
    rw [h.current?_of_ask]
    exact Option.or_none

theorem Ends.report {report : Report} (h : Ends w found? call (.report stored (.ok report)) last) :
    report.account = stored.signer.account ∧ report.chainId? = stored.signer.chainId? := by
  generalize hanswer : Answer.report stored (.ok report) = answer at h
  cases h with
  | reset => cases hanswer
  | kept => exact Purpose.report_of_tell hanswer.symm
  | unread => cases hanswer
  | failed => cases hanswer
  | made => exact Purpose.report_of_tell hanswer.symm

end Single

/-! ## Whole histories -/

/-- A call makes a signer from its settings, for the chain that they tell. -/
def Entry.Makes (e : Entry) (settings : Settings) (signer : Signer) : Prop :=
  signer.chainId? = some settings.chainId ∧
    ∃ purpose given? around informed after, e.call = .ask purpose given? around ∧
      e.start.registry.settings given? around = .ok (settings, informed) ∧
      (settings.makeSigner around).outcome e.start.session = (.ok signer, after)

/-- A call is what it should be behind earlier ones. -/
structure Entry.IsOrderly (past : List Entry) (e : Entry) : Prop where
  /-- The signer that is kept can be told from the calls before, -/
  found : e.start.registry.current? = kept? past
  /-- and behind the call from all of them. -/
  left : e.finish.registry.current? = kept? (past ++ [e])
  ends : Ends e.start (kept? past) e.call e.answer e.finish
  /-- A call that obtains no signer leaves the kept one, or none, as it was. -/
  refused : ∀ err, e.answer = .refused err →
    e.finish.registry.current? = e.start.registry.current?
  /-- A call that obtains a signer obtains the one that the first such call since the last reset
  made from its own settings. -/
  same : ∀ stored, e.answer.obtained? = some stored →
    ∃ maker settings, maker? (past ++ [e]) = some maker ∧
      maker.answer.obtained? = some stored ∧ maker.Makes settings stored.signer
  /-- With no signer kept, what a call obtains depends on its own settings only. -/
  own : kept? past = none → ∀ purpose settings around,
    e.call = .ask purpose (some settings) around →
      e.answer.obtained?.map Stored.signer =
        ((settings.makeSigner around).outcome e.start.session).1.toOption
  /-- A report tells the account and the chain of the signer. -/
  report : ∀ stored report, e.answer = .report stored (.ok report) →
    report.account = stored.signer.account ∧ report.chainId? = stored.signer.chainId?

/-- Each call is what it should be behind the ones before. -/
inductive Orderly : List Entry → Prop
  | nil : Orderly []
  | concat {past : List Entry} {e : Entry} (earlier : Orderly past) (last : e.IsOrderly past) :
    Orderly (past ++ [e])

/-- A call that obtains a signer where none is kept makes it. -/
theorem Ends.makes {w last : World} {call : Call} {answer : Answer}
    (h : Ends w none call answer last) {stored : Stored}
    (hobtained : answer.obtained? = some stored) :
    ∃ settings, Entry.Makes ⟨call, w, answer, last⟩ settings stored.signer := by
  cases h with
  | reset => cases hobtained
  | unread => cases hobtained
  | failed => cases hobtained
  | made settings made =>
    rw [Purpose.obtained?_tell] at hobtained
    cases hobtained
    exact ⟨_, chainId?_of_makeSigner made, _, _, _, _, _, rfl, settings, made⟩

/-- The signer that is kept was made from the settings of the call that obtained it. -/
theorem Orderly.makes {past : List Entry} (h : Orderly past) {maker : Entry} {stored : Stored}
    (hmaker : maker? past = some maker) (hstored : maker.answer.obtained? = some stored) :
    ∃ settings, maker.Makes settings stored.signer := by
  induction h with
  | nil => cases hmaker
  | @concat past e _ last ih =>
    cases hreset : e.isReset with
    | true =>
      rw [maker?_concat_of_reset hreset] at hmaker
      cases hmaker
    | false =>
      rw [maker?_concat_of_ask hreset] at hmaker
      cases hearlier : maker? past with
      | some earlier =>
        rw [hearlier] at hmaker
        exact ih (hearlier.trans hmaker)
      | none =>
        rw [hearlier, Option.none_or] at hmaker
        obtain ⟨-, hsame⟩ := Option.ite_none_right_eq_some.mp hmaker
        cases hsame
        have hends := last.ends
        rw [kept?_of_maker?_eq_none hearlier] at hends
        exact hends.makes hstored

/-- The next call keeps what the calls before left, or what it obtains. -/
theorem World.left_entry {w : World} {past : List Entry}
    (h : w.registry.current? = kept? past) (call : Call) :
    (w.entry call).finish.registry.current? = kept? (past ++ [w.entry call]) := by
  have hends := w.ends_perform call
  cases call with
  | reset => rw [kept?_concat_of_reset rfl]; exact hends.current?_of_reset
  | ask purpose given? around =>
    rw [kept?_concat_of_ask rfl, ← h]
    exact hends.current?_of_ask

theorem Orderly.same {past : List Entry} (h : Orderly past) {w last : World} {call : Call}
    {answer : Answer} (hends : Ends w (kept? past) call answer last) {stored : Stored}
    (hstored : answer.obtained? = some stored) :
    ∃ maker settings, maker? (past ++ [⟨call, w, answer, last⟩]) = some maker ∧
      maker.answer.obtained? = some stored ∧ maker.Makes settings stored.signer := by
  cases call with
  | reset =>
    rw [hends.answer_of_reset] at hstored
    cases hstored
  | ask purpose given? around =>
    rw [maker?_concat_of_ask rfl]
    cases hmaker : maker? past with
    | some maker =>
      obtain ⟨first, hfirst, hkept⟩ := obtained?_of_maker? hmaker
      rw [hkept] at hends
      obtain rfl : first = stored := Option.some.inj (hends.obtained?_of_kept.symm.trans hstored)
      obtain ⟨settings, hmakes⟩ := h.makes hmaker hfirst
      exact ⟨maker, settings, rfl, hfirst, hmakes⟩
    | none =>
      rw [kept?_of_maker?_eq_none hmaker] at hends
      obtain ⟨settings, hmakes⟩ := hends.makes hstored
      refine ⟨_, settings, ?_, hstored, hmakes⟩
      simp [hstored]

theorem World.isOrderly_entry {w : World} {past : List Entry} (hpast : Orderly past)
    (h : w.registry.current? = kept? past) (call : Call) : (w.entry call).IsOrderly past := by
  have hends := w.ends_perform call
  have hkept := hends
  rw [h] at hkept
  refine ⟨h, World.left_entry h call, hkept, ?_, ?_, ?_, ?_⟩
  · intro e he
    change (w.perform call).1 = .refused e at he
    rw [he] at hends
    exact hends.current?_of_refused
  · intro stored hstored
    exact hpast.same hkept hstored
  · intro hnone purpose settings around hcall
    obtain rfl : call = _ := hcall
    rw [hnone] at hkept
    exact hkept.obtained?_of_given
  · intro stored report he
    change (w.perform call).1 = .report stored (.ok report) at he
    rw [he] at hkept
    exact hkept.report

theorem Orderly.append_history {w : World} {past : List Entry} (hpast : Orderly past)
    (h : w.registry.current? = kept? past) (calls : List Call) :
    Orderly (past ++ w.history calls) := by
  induction calls generalizing w past with
  | nil => rwa [World.history, List.append_nil]
  | cons call calls ih =>
    have hentry := World.isOrderly_entry hpast h call
    rw [World.history, List.append_cons]
    exact ih (.concat hpast hentry) hentry.left

/-- **Calls one after the other are told the signer that the first of them made.** Whatever calls
follow each other and whatever the service answers, a call that obtains a signer obtains the one
that the first such call since the last reset made from its settings. It neither reads a key nor
asks for one again. A call that obtains none leaves the kept signer as it was, and fails only where
its own settings make no signer and none is kept. -/
theorem orderly_history (session : Session) (calls : List Call) :
    Orderly (World.history { session } calls) :=
  Orderly.nil.append_history kept?_nil.symm calls

/-- A session that tells a public key, and then gives an answer without one. -/
def faultySession : Session :=
  { answers := [.given [("PublicKey", .bytes Process.sampleKeyInfo)], .given []] }

/-- Settings that tell a key to hold. -/
def heldSettings : Settings :=
  { Process.sampleSettings with
    signerBackend := "local"
    privateKey? := some "0000000000000000000000000000000000000000000000000000000000000002" }

/-- A report that fails has stored its signer before. The next call is the first to succeed, and is
told this signer and not the one that its own settings make. -/
theorem current?_of_failed_report :
    ∃ first second stored e own,
      World.history { session := faultySession }
        [.ask .report (some Process.sampleSettings) {}, .ask .signer (some heldSettings) {}] =
          [first, second] ∧
      first.answer = .report stored (.error e) ∧
      first.start.registry.current? = none ∧ first.finish.registry.current? = some stored ∧
      second.answer = .signer stored ∧
      ((heldSettings.makeSigner {}).outcome second.start.session).1 = .ok own ∧
      own ≠ stored.signer := by
  refine ⟨_, _, _, _, _, rfl, rfl, rfl, rfl, rfl, rfl, ?_⟩
  -- One of them holds its key, the other one is a key of the service.
  intro hsame
  cases hsame

end Registry

end MetaTx
