import Mathlib.Data.List.Induction
import MetaTx.Proofs.Except
import MetaTx.Proofs.Service.Session
import MetaTx.Registry

/-!
# Calls for the signer at the same time

A call for the signer first looks whether one is kept. If it has to fetch a public key it waits, and
other calls go on meanwhile; when the key is there it stores its signer without another look. So a
call can store a signer over one that another call has stored and handed out while it waited. Below
any number of calls go on in any order, and the process turns out to have one signer exactly if this
never happens. It does happen to two calls that begin one after the other and both have to wait.
-/

namespace MetaTx.Registry

/-! ## Processes -/

/-- A process in the midst of its calls. -/
structure Process where
  registry : Registry := {}
  /-- The calls that wait, by the key whose public key they fetch and the chain. -/
  waiting : List (ServiceKey × Int) := []
  /-- What came of the calls that are over. -/
  returned : List (Except Error Stored) := []

/-- What happens next in a process. -/
inductive Event
  /-- A call begins, and goes on until it is over or has to wait. -/
  | begin (settings : Settings) (around : Surroundings)
  /-- The call at a place has waited, is answered in a session, and goes on until it is over. -/
  | finish (place : Nat) (session : Session)

namespace Process

/-- A call is over and leaves the registry as it is. -/
def comesTo (p : Process) (outcome : Except Error Stored) : Process :=
  { p with returned := p.returned ++ [outcome] }

/-- A call is over and stores its signer. -/
def stores (p : Process) (signer : Signer) : Process :=
  { p with
    registry := (p.registry.store signer).2
    returned := p.returned ++ [.ok (p.registry.store signer).1] }

/-- What a waiting call fetches: the signer of its key, or an error. -/
def fetched (call : ServiceKey × Int) (session : Session) : Except Error Signer :=
  ((Signer.ofService call.1 (some call.2)).outcome session).1

def step (p : Process) : Event → Process
  | .begin settings around =>
    match p.registry.begin settings around with
    | .error e => p.comesTo (.error e)
    | .ok (.stored stored) => p.comesTo (.ok stored)
    | .ok (.made signer) => p.stores signer
    | .ok (.waiting key chainId) => { p with waiting := p.waiting ++ [(key, chainId)] }
  | .finish place session =>
    match p.waiting[place]? with
    | none => p
    | some call =>
      let rest : Process := { p with waiting := p.waiting.eraseIdx place }
      match fetched call session with
      | .error e => rest.comesTo (.error e)
      | .ok signer => rest.stores signer

/-- A process after some events, with nothing kept and no calls at first. -/
def run (events : List Event) : Process := events.foldl step {}

/-- All calls that succeeded came to one signer, and so does every call that begins now. -/
structure HasOneSigner (p : Process) : Prop where
  same : ∀ a b, .ok a ∈ p.returned → .ok b ∈ p.returned → a = b
  later : ∀ stored, .ok stored ∈ p.returned → ∀ settings around,
    p.registry.begin settings around = .ok (.stored stored)

/-- A call that has waited stores its signer although one is kept by now. -/
def Replaces (p : Process) : Event → Prop
  | .begin _ _ => False
  | .finish place session => p.registry.current?.isSome = true ∧
    ∃ call signer, p.waiting[place]? = some call ∧ fetched call session = .ok signer

end Process

/-! ## Single steps -/

theorem begin_of_current {r : Registry} {stored : Stored} (h : r.current? = some stored)
    (settings : Settings) (around : Surroundings) :
    r.begin settings around = .ok (.stored stored) := by
  rw [begin, h]

/-- A call is told the kept signer, and makes or fetches one only if there is none. -/
theorem current?_of_begin {r : Registry} {settings : Settings} {around : Surroundings}
    {begun : Begun} (h : r.begin settings around = .ok begun) :
    match begun with
    | .stored stored => r.current? = some stored
    | .made _ | .waiting _ _ => r.current? = none := by
  cases hcurrent : r.current? with
  | some stored =>
    rw [begin_of_current hcurrent] at h
    cases h
    rfl
  | none =>
    rw [begin, hcurrent] at h
    obtain ⟨choice, -, h⟩ := Except.bind_eq_ok_iff.mp h
    obtain ⟨-, -, h⟩ := Except.bind_eq_ok_iff.mp h
    cases choice with
    | service =>
      obtain ⟨key, -, h⟩ := Except.bind_eq_ok_iff.mp h
      cases h
      rfl
    | held =>
      obtain ⟨key, -, h⟩ := Except.bind_eq_ok_iff.mp h
      cases h
      rfl

/-- A call that nothing comes between is told the kept signer, or stores one if there is none. -/
theorem current?_of_get {r registry : Registry} {settings : Settings} {around : Surroundings}
    {stored : Stored} {session after : Session}
    (h : (r.get settings around).outcome session = (.ok (stored, registry), after)) :
    r.current? = some stored ∧ registry = r ∨
      r.current? = none ∧ ∃ signer, registry = (r.store signer).2 := by
  obtain ⟨begun, between, hbegin, h⟩ := Run.exists_of_outcome_bind h
  have hcurrent := current?_of_begin (Run.eq_of_outcome_lift hbegin).1
  cases begun with
  | stored stored =>
    cases h
    exact .inl ⟨hcurrent, rfl⟩
  | made signer =>
    cases h
    exact .inr ⟨hcurrent, signer, rfl⟩
  | waiting key chainId =>
    obtain ⟨signer, last, -, h⟩ := Run.exists_of_outcome_bind h
    cases h
    exact .inr ⟨hcurrent, signer, rfl⟩

namespace Process

section Steps

variable {p : Process} {settings : Settings} {around : Surroundings} {place : Nat}
  {session : Session} {e : Error} {signer : Signer}

theorem step_begin_of_error (h : p.registry.begin settings around = .error e) :
    p.step (.begin settings around) = p.comesTo (.error e) := by
  simp only [step, h]

theorem step_begin_of_stored {stored : Stored}
    (h : p.registry.begin settings around = .ok (.stored stored)) :
    p.step (.begin settings around) = p.comesTo (.ok stored) := by
  simp only [step, h]

theorem step_begin_of_made (h : p.registry.begin settings around = .ok (.made signer)) :
    p.step (.begin settings around) = p.stores signer := by
  simp only [step, h]

theorem step_begin_of_waiting {key : ServiceKey} {chainId : Int}
    (h : p.registry.begin settings around = .ok (.waiting key chainId)) :
    p.step (.begin settings around) = { p with waiting := p.waiting ++ [(key, chainId)] } := by
  simp only [step, h]

theorem step_finish_of_none (h : p.waiting[place]? = none) (session : Session) :
    p.step (.finish place session) = p := by
  rw [step, h]

theorem step_finish_of_error {call : ServiceKey × Int} (hcall : p.waiting[place]? = some call)
    (h : fetched call session = .error e) : p.step (.finish place session) =
      { p with waiting := p.waiting.eraseIdx place }.comesTo (.error e) := by
  simp only [step, hcall, h]

theorem step_finish_of_ok {call : ServiceKey × Int} (hcall : p.waiting[place]? = some call)
    (h : fetched call session = .ok signer) : p.step (.finish place session) =
      { p with waiting := p.waiting.eraseIdx place }.stores signer := by
  simp only [step, hcall, h]

end Steps

/-- An event leaves the registry as it is, and then hands out nothing but the kept signer, or it
stores a signer and hands this out. -/
theorem step_cases (p : Process) (e : Event) :
    (¬p.Replaces e ∧ (p.step e).registry = p.registry ∧
      ∃ added, (p.step e).returned = p.returned ++ added ∧
        ∀ stored, .ok stored ∈ added → p.registry.current? = some stored) ∨
    ((p.registry.current?.isSome = true → p.Replaces e) ∧ ∃ signer,
      (p.step e).registry = (p.registry.store signer).2 ∧
      (p.step e).returned = p.returned ++ [.ok (p.registry.store signer).1]) := by
  cases e with
  | begin settings around =>
    cases hbegin : p.registry.begin settings around with
    | error e =>
      rw [step_begin_of_error hbegin]
      exact .inl ⟨id, rfl, [.error e], rfl, by simp⟩
    | ok begun =>
      have hcurrent := current?_of_begin hbegin
      cases begun with
      | stored stored =>
        rw [step_begin_of_stored hbegin]
        refine .inl ⟨id, rfl, [.ok stored], rfl, ?_⟩
        intro other hother
        obtain rfl := Except.ok.inj (List.mem_singleton.mp hother)
        exact hcurrent
      | made signer =>
        rw [step_begin_of_made hbegin]
        refine .inr ⟨?_, signer, rfl, rfl⟩
        intro hsome
        rw [hcurrent] at hsome
        cases hsome
      | waiting key chainId =>
        rw [step_begin_of_waiting hbegin]
        exact .inl ⟨id, rfl, [], (List.append_nil _).symm, by simp⟩
  | finish place session =>
    cases hcall : p.waiting[place]? with
    | none =>
      rw [step_finish_of_none hcall session]
      refine .inl ⟨?_, rfl, [], (List.append_nil _).symm, by simp⟩
      rintro ⟨-, call, signer, hsome, -⟩
      rw [hcall] at hsome
      cases hsome
    | some call =>
      cases hfetched : fetched call session with
      | error e =>
        rw [step_finish_of_error hcall hfetched]
        refine .inl ⟨?_, rfl, [.error e], rfl, by simp⟩
        rintro ⟨-, call', signer, hsome, hok⟩
        obtain rfl := Option.some.inj (hcall.symm.trans hsome)
        rw [hfetched] at hok
        cases hok
      | ok signer =>
        rw [step_finish_of_ok hcall hfetched]
        exact .inr ⟨fun hsome => ⟨hsome, call, signer, hcall, hfetched⟩, signer, rfl, rfl⟩

/-! ## Runs -/

/-- The signers that were handed out are those that were stored, and the last one is kept. -/
structure Counts (p : Process) : Prop where
  kept : ∀ stored, p.registry.current? = some stored → .ok stored ∈ p.returned
  isSome : p.registry.current?.isSome = true ↔ 0 < p.registry.count
  bounded : ∀ stored, .ok stored ∈ p.returned → stored.serial < p.registry.count
  newest : ∀ stored, .ok stored ∈ p.returned → stored.serial + 1 = p.registry.count →
    p.registry.current? = some stored
  all : ∀ n, n < p.registry.count → ∃ stored, .ok stored ∈ p.returned ∧ stored.serial = n

namespace Counts

variable {p q : Process}

/-- Nothing was stored, and nothing but the kept signer was handed out. -/
theorem of_kept (h : p.Counts) (hregistry : q.registry = p.registry)
    {added : List (Except Error Stored)} (hreturned : q.returned = p.returned ++ added)
    (hadded : ∀ stored, .ok stored ∈ added → p.registry.current? = some stored) : q.Counts := by
  have hmem : ∀ stored, .ok stored ∈ q.returned → .ok stored ∈ p.returned := by
    intro stored hstored
    rw [hreturned] at hstored
    rcases List.mem_append.mp hstored with hold | hnew
    · exact hold
    · exact h.kept stored (hadded stored hnew)
  have hsub : ∀ outcome ∈ p.returned, outcome ∈ q.returned := by
    intro outcome houtcome
    rw [hreturned]
    exact List.mem_append_left added houtcome
  constructor
  · intro stored hstored
    rw [hregistry] at hstored
    exact hsub _ (h.kept stored hstored)
  · rw [hregistry]
    exact h.isSome
  · intro stored hstored
    rw [hregistry]
    exact h.bounded stored (hmem stored hstored)
  · intro stored hstored hserial
    rw [hregistry] at hserial ⊢
    exact h.newest stored (hmem stored hstored) hserial
  · intro n hn
    rw [hregistry] at hn
    obtain ⟨stored, hstored, hserial⟩ := h.all n hn
    exact ⟨stored, hsub _ hstored, hserial⟩

/-- A signer was stored and handed out. -/
theorem of_stored (h : p.Counts) {signer : Signer}
    (hregistry : q.registry = (p.registry.store signer).2)
    (hreturned : q.returned = p.returned ++ [.ok (p.registry.store signer).1]) : q.Counts := by
  have hmem : ∀ stored, .ok stored ∈ q.returned ↔
      .ok stored ∈ p.returned ∨ stored = ⟨p.registry.count, signer⟩ := by
    intro stored
    rw [hreturned, List.mem_append, List.mem_singleton, Except.ok.injEq]
    rfl
  constructor
  · intro stored hstored
    rw [hregistry] at hstored
    rw [hmem]
    exact .inr (Option.some.inj hstored).symm
  · rw [hregistry]
    simp [store]
  · intro stored hstored
    rw [hregistry]
    show stored.serial < p.registry.count + 1
    rcases (hmem stored).mp hstored with hold | rfl
    · have := h.bounded stored hold
      omega
    · exact Nat.lt_succ_self _
  · intro stored hstored hserial
    rw [hregistry] at hserial ⊢
    change stored.serial + 1 = p.registry.count + 1 at hserial
    rcases (hmem stored).mp hstored with hold | rfl
    · have := h.bounded stored hold
      omega
    · rfl
  · intro n hn
    rw [hregistry] at hn
    change n < p.registry.count + 1 at hn
    by_cases hlast : n = p.registry.count
    · exact ⟨_, (hmem _).mpr (.inr rfl), hlast.symm⟩
    · obtain ⟨stored, hstored, hserial⟩ := h.all n (by omega)
      exact ⟨stored, (hmem stored).mpr (.inl hstored), hserial⟩

theorem step (h : p.Counts) (e : Event) : (p.step e).Counts := by
  rcases p.step_cases e with ⟨-, hregistry, added, hreturned, hadded⟩ |
    ⟨-, signer, hregistry, hreturned⟩
  · exact h.of_kept hregistry hreturned hadded
  · exact h.of_stored hregistry hreturned

end Counts

theorem run_concat (events : List Event) (e : Event) :
    run (events ++ [e]) = (run events).step e := by
  simp [run]

theorem counts_run (events : List Event) : (run events).Counts := by
  induction events using List.reverseRecOn with
  | nil => constructor <;> simp [run]
  | append_singleton events e ih =>
    rw [run_concat]
    exact ih.step e

/-- There is one signer as long as no more than one was stored. -/
theorem Counts.hasOneSigner_iff {p : Process} (h : p.Counts) :
    p.HasOneSigner ↔ p.registry.count ≤ 1 := by
  constructor
  · intro hone
    by_contra hmany
    obtain ⟨a, ha, haserial⟩ := h.all 0 (by omega)
    obtain ⟨b, hb, hbserial⟩ := h.all 1 (by omega)
    rw [hone.same a b ha hb, hbserial] at haserial
    cases haserial
  · intro hle
    have hkept : ∀ stored, .ok stored ∈ p.returned → p.registry.current? = some stored := by
      intro stored hstored
      have hbound := h.bounded stored hstored
      exact h.newest stored hstored (by omega)
    constructor
    · intro a b ha hb
      exact Option.some.inj ((hkept a ha).symm.trans (hkept b hb))
    · intro stored hstored settings around
      exact begin_of_current (hkept stored hstored) settings around

theorem Counts.count_step_le_one_iff {p : Process} (h : p.Counts) (e : Event) :
    (p.step e).registry.count ≤ 1 ↔ p.registry.count ≤ 1 ∧ ¬p.Replaces e := by
  have hsome := h.isSome
  rcases p.step_cases e with ⟨hreplaces, hregistry, -⟩ | ⟨hreplaces, signer, hregistry, -⟩
  · rw [hregistry]
    exact ⟨fun hle => ⟨hle, hreplaces⟩, And.left⟩
  · rw [hregistry]
    show p.registry.count + 1 ≤ 1 ↔ _
    constructor
    · intro hle
      refine ⟨by omega, ?_⟩
      intro hreplace
      have hpos : 0 < p.registry.count := by
        cases e with
        | begin settings around => exact hreplace.elim
        | finish place session => exact hsome.mp hreplace.1
      omega
    · rintro ⟨-, hnot⟩
      have hnone : ¬0 < p.registry.count := fun hpos => hnot (hreplaces (hsome.mpr hpos))
      omega

theorem count_run_le_one_iff (events : List Event) :
    (run events).registry.count ≤ 1 ↔
      ∀ before e after, events = before ++ e :: after → ¬(run before).Replaces e := by
  induction events using List.reverseRecOn with
  | nil => simp [run]
  | append_singleton events e ih =>
    rw [run_concat, (counts_run events).count_step_le_one_iff, ih]
    constructor
    · rintro ⟨hearlier, hlast⟩ before e' after hsplit
      rcases List.eq_nil_or_concat after with rfl | ⟨after, last, rfl⟩
      · obtain ⟨rfl, he⟩ := List.append_inj' hsplit rfl
        cases he
        exact hlast
      · rw [List.concat_eq_append, ← List.cons_append, ← List.append_assoc] at hsplit
        obtain ⟨hrest, -⟩ := List.append_inj' hsplit rfl
        exact hearlier before e' after hrest
    · intro hall
      refine ⟨?_, hall events e [] rfl⟩
      rintro before e' after rfl
      exact hall before e' (after ++ [e]) (by simp)

/-! ## Calls one after the other -/

/-- A call that nothing comes between is one that is finished right after it begins. -/
theorem step_begin_finish (p : Process) (settings : Settings) (around : Surroundings)
    (session : Session) :
    (p.step (.begin settings around)).step (.finish p.waiting.length session) =
      match ((p.registry.get settings around).outcome session).1 with
      | .error e => p.comesTo (.error e)
      | .ok (stored, registry) => { p.comesTo (.ok stored) with registry } := by
  have hend : p.waiting[p.waiting.length]? = none := List.getElem?_eq_none (Nat.le_refl _)
  cases hbegin : p.registry.begin settings around with
  | error e =>
    have hget : (p.registry.get settings around).outcome session = (.error e, session) := by
      rw [get, hbegin]
      rfl
    simp only [step, hbegin, comesTo, hend, hget]
  | ok begun =>
    cases begun with
    | stored stored =>
      have hget : (p.registry.get settings around).outcome session =
          (.ok (stored, p.registry), session) := by
        rw [get, hbegin]
        rfl
      simp only [step, hbegin, comesTo, hend, hget]
    | made signer =>
      have hget : (p.registry.get settings around).outcome session =
          (.ok (p.registry.store signer), session) := by
        rw [get, hbegin]
        rfl
      simp only [step, hbegin, comesTo, stores, hend, hget]
    | waiting key chainId =>
      have hget : (p.registry.get settings around).outcome session =
          (do let signer ← Signer.ofService key (some chainId)
              return p.registry.store signer : Run (Stored × Registry)).outcome session := by
        rw [get, hbegin]
        rfl
      have hlast : (p.waiting ++ [(key, chainId)])[p.waiting.length]? = some (key, chainId) := by
        simp
      have herase : (p.waiting ++ [(key, chainId)]).eraseIdx p.waiting.length = p.waiting := by
        simp [List.eraseIdx_append_of_length_le]
      simp only [step, hbegin, hlast, herase]
      rcases hfetch : (Signer.ofService key (some chainId)).outcome session with ⟨e | signer, last⟩
      · have hfetched : fetched (key, chainId) session = .error e := congrArg Prod.fst hfetch
        rw [hget, Run.outcome_bind_error hfetch]
        simp only [hfetched, comesTo]
      · have hfetched : fetched (key, chainId) session = .ok signer := congrArg Prod.fst hfetch
        rw [hget, Run.outcome_bind_ok hfetch]
        simp only [hfetched, comesTo, stores, Run.outcome_pure]

/-- The events of a call that nothing comes between, if no other call waits. -/
def alone (call : Settings × Surroundings × Session) : List Event :=
  [.begin call.1 call.2.1, .finish 0 call.2.2]

/-- A call that nothing comes between leaves no call waiting, and stores a signer only if there is
none. -/
theorem Counts.step_alone {p : Process} (h : p.Counts) (hwaiting : p.waiting = [])
    (hcount : p.registry.count ≤ 1) (settings : Settings) (around : Surroundings)
    (session : Session) :
    ((p.step (.begin settings around)).step (.finish 0 session)).waiting = [] ∧
      ((p.step (.begin settings around)).step (.finish 0 session)).registry.count ≤ 1 := by
  have hpair := p.step_begin_finish settings around session
  rw [hwaiting, List.length_nil] at hpair
  rw [hpair]
  rcases hget : (p.registry.get settings around).outcome session with ⟨e | ⟨stored, registry⟩, after⟩
  · exact ⟨hwaiting, hcount⟩
  · refine ⟨hwaiting, ?_⟩
    rcases current?_of_get hget with ⟨-, rfl⟩ | ⟨hnone, signer, rfl⟩
    · exact hcount
    · have hzero : ¬0 < p.registry.count := by
        rw [← h.isSome, hnone]
        exact Bool.false_ne_true
      show p.registry.count + 1 ≤ 1
      omega

/-- Calls that come one after the other come to one signer, whatever their settings. -/
theorem hasOneSigner_of_alone (calls : List (Settings × Surroundings × Session)) :
    (run (calls.flatMap alone)).HasOneSigner := by
  have hkept : (run (calls.flatMap alone)).waiting = [] ∧
      (run (calls.flatMap alone)).registry.count ≤ 1 := by
    induction calls using List.reverseRecOn with
    | nil => exact ⟨rfl, Nat.zero_le 1⟩
    | append_singleton calls call ih =>
      obtain ⟨settings, around, session⟩ := call
      have hrun : run ((calls ++ [(settings, around, session)]).flatMap alone) =
          ((run (calls.flatMap alone)).step (.begin settings around)).step
            (.finish 0 session) := by
        simp [run, alone]
      rw [hrun]
      exact (counts_run _).step_alone ih.1 ih.2 settings around session
  exact (counts_run _).hasOneSigner_iff.mpr hkept.2

/-! ## The result -/

/-- **A process has one signer exactly if no call stores over another.** Whatever calls begin and go
on in whatever order, the ones that succeed come to one signer, which later calls are told as well,
if and only if no call that has waited finds a signer kept when it stores its own. -/
theorem hasOneSigner_run_iff (events : List Event) :
    (run events).HasOneSigner ↔
      ∀ before e after, events = before ++ e :: after → ¬(run before).Replaces e := by
  rw [(counts_run events).hasOneSigner_iff]
  exact count_run_le_one_iff events

/-- Settings that name a key of the service. -/
def sampleSettings : Settings where
  environment := "development"
  debug := false
  signerBackend := "kms"
  privateKey? := none
  keyFile? := none
  serviceKeyId? := some "key"
  region := ServiceKey.defaultRegion
  chainId := 1
  networkId := 1
  masterKey? := none

/-- The generator of the curve as a public key of the service. -/
def sampleKeyInfo : Bytes :=
  [0x30, 0x56, 0x30, 0x10, 0x06, 0x07, 0x2a, 0x86, 0x48, 0xce, 0x3d, 0x02, 0x01, 0x06, 0x05, 0x2b,
    0x81, 0x04, 0x00, 0x0a, 0x03, 0x42, 0x00] ++ (PublicKey.ofPoint Secp256k1.g).toLong

def sampleSession : Session := { answers := [.given [("PublicKey", .bytes sampleKeyInfo)]] }

/-- Two calls with the same settings, the second of which begins while the first one waits. -/
def sampleEvents : List Event := [
  .begin sampleSettings {}, .begin sampleSettings {}, .finish 0 sampleSession,
  .finish 0 sampleSession]

/-- Both calls succeed, with a signer each, and the first one is not kept. If the second one begins
only once the first one is over, the same calls come to one signer. -/
theorem not_hasOneSigner_sample :
    (∃ signer, (run sampleEvents).returned = [.ok ⟨0, signer⟩, .ok ⟨1, signer⟩] ∧
      (run sampleEvents).registry.current? = some ⟨1, signer⟩ ∧
      ¬(run sampleEvents).HasOneSigner) ∧
    (run ((List.replicate 2 (sampleSettings, {}, sampleSession)).flatMap alone)).HasOneSigner := by
  refine ⟨?_, hasOneSigner_of_alone _⟩
  have hreturned : ∃ signer, (run sampleEvents).returned = [.ok ⟨0, signer⟩, .ok ⟨1, signer⟩] ∧
      (run sampleEvents).registry.current? = some ⟨1, signer⟩ := ⟨_, rfl, rfl⟩
  obtain ⟨signer, hreturned, hcurrent⟩ := hreturned
  refine ⟨signer, hreturned, hcurrent, ?_⟩
  intro hone
  have hsame := hone.same ⟨0, signer⟩ ⟨1, signer⟩ (by simp [hreturned]) (by simp [hreturned])
  cases hsame

end Process

end MetaTx.Registry
