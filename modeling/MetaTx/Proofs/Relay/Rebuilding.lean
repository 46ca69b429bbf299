import MetaTx.Proofs.Except
import MetaTx.Proofs.Relay.Parts
import MetaTx.Proofs.Relay.Recording

/-!
# Building more than once

A builder may be asked to build at any time, and it goes on recording after that, whether it has
built or failed. What it builds is what comes of both parts if they are made by themselves, of the
value that was recorded last for each field. So neither the order in which fields are recorded nor
earlier builds matter, and whatever was recorded can be put right.
-/

namespace MetaTx

namespace Relay

theorem Slot.key_injective : Function.Injective key := by
  intro slot slot' h
  cases slot <;> cases slot' <;> first | rfl | exact absurd h (by decide)

theorem Slot.key_ne_from (slot : Slot) : slot.key ≠ "from" := by
  cases slot <;> decide

end Relay

namespace RelayBuilder

open MetaTx.Relay MetaTx.Field

/-! ## Last values -/

/-- The value that a call records for a field. -/
def Setting.value? (slot : Slot) : Setting → Option Value
  | set slot' v => if slot' = slot then some v else none
  | noExpiry => none

/-- The value that was recorded last for a field. -/
def lastValue? (slot : Slot) (settings : List Setting) : Option Value :=
  settings.reverse.findSome? (Setting.value? slot)

/-- The part that a field belongs to. -/
def part (b : RelayBuilder) (slot : Slot) : List (String × Value) :=
  if slot.isDomain then b.domain else b.request

theorem part_set (b : RelayBuilder) (slot slot' : Slot) (v : Value) :
    (b.set slot v).part slot' =
      if slot.isDomain = slot'.isDomain then putEntry slot.key v (b.part slot')
      else b.part slot' := by
  unfold set part
  cases slot.isDomain <;> cases slot'.isDomain <;> rfl

/-- A call changes the entry of the field that it records a value for, and no other. -/
theorem get?_part_after (b : RelayBuilder) (setting : Setting) (slot : Slot) :
    Value.get? slot.key ((setting.after b).part slot) =
      (setting.value? slot).or (Value.get? slot.key (b.part slot)) := by
  cases setting with
  | noExpiry =>
    show Value.get? slot.key (b.endless.part slot) = Value.get? slot.key (b.part slot)
    unfold endless part
    cases slot.isDomain with
    | true => rfl
    | false => exact (get?_putEntry ..).trans (if_neg slot.key_ne_noExpiry.symm)
  | set slot' v =>
    show Value.get? slot.key ((b.set slot' v).part slot) = _
    rw [part_set, Setting.value?]
    by_cases hslot : slot' = slot
    · rw [hslot, if_pos rfl, if_pos rfl, get?_putEntry, if_pos rfl, Option.some_or]
    · rw [if_neg hslot, Option.none_or]
      split
      · rw [get?_putEntry, if_neg (Slot.key_injective.ne hslot)]
      · rfl

theorem lastValue?_append (slot : Slot) (first second : List Setting) :
    lastValue? slot (first ++ second) = (lastValue? slot second).or (lastValue? slot first) := by
  rw [lastValue?, List.reverse_append, List.findSome?_append]
  rfl

theorem lastValue?_singleton (slot : Slot) (setting : Setting) :
    lastValue? slot [setting] = setting.value? slot := by
  rw [lastValue?, List.reverse_singleton, List.findSome?_singleton]

/-- The entry of a field holds its last value. -/
theorem get?_part_recorded (slot : Slot) (settings : List Setting) :
    Value.get? slot.key ((recorded {} settings).part slot) = lastValue? slot settings := by
  -- From the last call back, as the last value is looked for.
  induction settings using List.reverseRecOn with
  | nil => cases slot <;> rfl
  | append_singleton settings setting ih =>
    rw [recorded_append_singleton, get?_part_after, ih, lastValue?_append, lastValue?_singleton]

/-- The sender is recorded under the name of its field. -/
theorem get?_from_recorded (settings : List Setting) :
    Value.get? "from" (recorded {} settings).request = none := by
  induction settings using List.reverseRecOn with
  | nil => rfl
  | append_singleton settings setting ih =>
    rw [recorded_append_singleton]
    cases setting with
    | noExpiry => exact ((get?_putEntry ..).trans (if_neg (by decide))).trans ih
    | set slot v => exact (get?_request_set slot.key_ne_from _ v).trans ih

/-! ## Calls -/

/-- A call of a builder. -/
inductive Call
  | record (setting : Setting)
  | build

def Call.setting? : Call → Option Setting
  | record setting => some setting
  | build => none

def Call.isBuild : Call → Bool
  | record _ => false
  | build => true

/-- A call for each value. -/
def Call.recordAll (values : List (Slot × Value)) : List Call :=
  values.map fun (slot, v) => record (.set slot v)

/-- What the calls record. -/
def settings (calls : List Call) : List Setting := calls.filterMap Call.setting?

theorem settings_append (first second : List Call) :
    settings (first ++ second) = settings first ++ settings second :=
  List.filterMap_append

/-- Makes the calls one after the other, and keeps what every build comes to. -/
def perform (b : RelayBuilder) : List Call → Run (RelayBuilder × List (Except Error RelayTx))
  | [] => return (b, [])
  | .record setting :: rest => do perform (← setting.apply b) rest
  | .build :: rest => do
    let built ← Session.attempt (liftM b.build)
    let (last, results) ← perform b rest
    return (last, built :: results)

/-- What the builds among the calls come to. -/
def results (b : RelayBuilder) : List Call → List (Except Error RelayTx)
  | [] => []
  | .record setting :: rest => results (setting.after b) rest
  | .build :: rest => b.build :: results b rest

theorem outcome_perform (b : RelayBuilder) (calls : List Call) (session : Session) :
    ∃ last, (b.perform calls).outcome session =
      (.ok (b.recorded (settings calls), b.results calls), last) := by
  induction calls generalizing b session with
  | nil => exact ⟨session, rfl⟩
  | cons call rest ih =>
    cases call with
    | record setting =>
      obtain ⟨between, hfirst⟩ := setting.outcome_apply b session
      obtain ⟨last, hrest⟩ := ih (setting.after b) between
      exact ⟨last, (Run.outcome_bind_ok hfirst).trans hrest⟩
    | build =>
      obtain ⟨last, hrest⟩ := ih b session
      have hbuilt := Run.outcome_attempt (liftM b.build) session
      exact ⟨last, (Run.outcome_bind_ok hbuilt).trans (Run.outcome_bind_ok hrest)⟩

theorem results_append (b : RelayBuilder) (first second : List Call) :
    b.results (first ++ second) =
      b.results first ++ (b.recorded (settings first)).results second := by
  induction first generalizing b with
  | nil => rfl
  | cons call rest ih =>
    cases call with
    | record setting => exact ih (setting.after b)
    | build => exact congrArg (b.build :: ·) (ih b)

theorem length_results (b : RelayBuilder) (calls : List Call) :
    (b.results calls).length = calls.countP Call.isBuild := by
  induction calls generalizing b with
  | nil => rfl
  | cons call rest ih =>
    cases call with
    | record setting => exact ih (setting.after b)
    | build =>
      rw [results, List.length_cons, ih, List.countP_cons_of_pos rfl]

/-! ## Parts that are made by themselves -/

/-- Entries that hold the last values of the fields, with the sender under either of its names, and
that state that there is no expiry if the builder was told so. -/
structure IsDirect (calls : List Call) (domain request : List (String × Value)) : Prop where
  domainEntry : ∀ slot : Slot, slot.isDomain = true →
    Value.get? slot.key domain = lastValue? slot (settings calls)
  requestEntry : ∀ slot : Slot, slot.isDomain = false → slot ≠ .sender →
    Value.get? slot.key request = lastValue? slot (settings calls)
  sender : Request.sender? request = lastValue? .sender (settings calls)
  noExpiry : (Setting.noExpiry ∈ settings calls ∧
      Value.get? "no_expiry" request = some (.bool true)) ∨
    (Setting.noExpiry ∉ settings calls ∧ Value.get? "no_expiry" request = none)

theorem isDirect_recorded (calls : List Call) :
    IsDirect calls (recorded {} (settings calls)).domain (recorded {} (settings calls)).request where
  domainEntry slot h := by
    have hentry := get?_part_recorded slot (settings calls)
    rwa [part, if_pos h] at hentry
  requestEntry slot h _ := by
    have hentry := get?_part_recorded slot (settings calls)
    rwa [part, h, if_neg Bool.false_ne_true] at hentry
  sender := by
    rw [Request.sender?, get?_from_recorded, Option.none_or]
    exact get?_part_recorded .sender (settings calls)
  noExpiry := get?_noExpiry_recorded (settings calls)

/-- Two sequences of calls leave the same last values. -/
structure SameValues (calls calls' : List Call) : Prop where
  value : ∀ slot, lastValue? slot (settings calls) = lastValue? slot (settings calls')
  noExpiry : Setting.noExpiry ∈ settings calls ↔ Setting.noExpiry ∈ settings calls'

namespace SameValues

theorem of_settings_eq {calls calls' : List Call} (h : settings calls = settings calls') :
    SameValues calls calls' :=
  ⟨fun _ => by rw [h], by rw [h]⟩

/-- A build leaves no values. -/
theorem build (before after : List Call) :
    SameValues (before ++ after) (before ++ .build :: after) :=
  of_settings_eq (by rw [settings_append, settings_append]; rfl)

/-- Calls that record different fields may be made in either order. -/
theorem swap {first second : Setting}
    (h : ∀ slot, first.value? slot = none ∨ second.value? slot = none) (before after : List Call) :
    SameValues (before ++ [.record first, .record second] ++ after)
      (before ++ [.record second, .record first] ++ after) where
  value slot := by
    have hpair (a b : Setting) : lastValue? slot (settings [.record a, .record b]) =
        (b.value? slot).or (a.value? slot) := by
      rw [← lastValue?_singleton, ← lastValue?_singleton]
      exact lastValue?_append slot [a] [b]
    have hcomm : (second.value? slot).or (first.value? slot) =
        (first.value? slot).or (second.value? slot) := by
      rcases h slot with hnone | hnone <;> simp [hnone]
    simp only [settings_append, lastValue?_append, hpair, hcomm]
  noExpiry := by
    simp only [settings_append, List.mem_append]
    simp [settings, Call.setting?, or_comm]

end SameValues

namespace IsDirect

variable {calls calls' : List Call} {domain domain' request request' : List (String × Value)}

theorem of_sameValues (h : IsDirect calls domain request) (hsame : SameValues calls calls') :
    IsDirect calls' domain request where
  domainEntry slot hslot := (h.domainEntry slot hslot).trans (hsame.value slot)
  requestEntry slot hslot hne := (h.requestEntry slot hslot hne).trans (hsame.value slot)
  sender := h.sender.trans (hsame.value .sender)
  noExpiry := by
    have hno := h.noExpiry
    rwa [hsame.noExpiry] at hno

/-- The refusals of two direct ways differ as far as those of the sender do. -/
theorem mapError_ofParts (h : IsDirect calls domain request) (h' : IsDirect calls domain' request')
    {g : Refusal → Refusal}
    (hsender : (Request.checkSender request).mapRefusals g =
      (Request.checkSender request').mapRefusals g) :
    (ofParts (Domain.check domain) (Request.check request)).mapError (Error.mapRefusals g) =
      (ofParts (Domain.check domain') (Request.check request')).mapError
        (Error.mapRefusals g) := by
  have hdomain : Domain.check domain = Domain.check domain' :=
    Domain.check_congr fun slot hslot =>
      (h.domainEntry slot hslot).trans (h'.domainEntry slot hslot).symm
  have hno : Value.get? "no_expiry" request = Value.get? "no_expiry" request' := by
    rcases h.noExpiry with ⟨hmem, hentry⟩ | ⟨hmem, hentry⟩
    · rcases h'.noExpiry with ⟨-, hentry'⟩ | ⟨hmem', -⟩
      · rw [hentry, hentry']
      · exact absurd hmem hmem'
    · rcases h'.noExpiry with ⟨hmem', -⟩ | ⟨-, hentry'⟩
      · exact absurd hmem' hmem
      · rw [hentry, hentry']
  have hrequest := Request.mapRefusals_check_congr hsender (fun slot hslot hne =>
    (h.requestEntry slot hslot hne).trans (h'.requestEntry slot hslot hne).symm) hno
  rw [Relay.mapError_ofParts, Relay.mapError_ofParts, hdomain, hrequest]

end IsDirect

/-- What is built is what the parts come to that are made by themselves. -/
theorem build_of_isDirect {calls : List Call} {domain request : List (String × Value)}
    (h : IsDirect calls domain request) :
    (Value.get? "from" request = none → (recorded {} (settings calls)).build =
      ofParts (Domain.check domain) (Request.check request)) ∧
    (recorded {} (settings calls)).build.mapError (Error.mapRefusals Request.unaliased) =
      (ofParts (Domain.check domain) (Request.check request)).mapError
        (Error.mapRefusals Request.unaliased) := by
  have hrecorded := isDirect_recorded calls
  rw [build_eq_ofParts]
  constructor
  · intro hfrom
    have hsender : Request.checkSender (recorded {} (settings calls)).request =
        Request.checkSender request :=
      Request.checkSender_congr (get?_from_recorded (settings calls)) hfrom
        (hrecorded.sender.trans h.sender.symm)
    have hparts := hrecorded.mapError_ofParts h (congrArg (Checked.mapRefusals id) hsender)
    rwa [Error.mapError_mapRefusals_id, Error.mapError_mapRefusals_id] at hparts
  · refine hrecorded.mapError_ofParts h ?_
    rw [Request.mapRefusals_checkSender, Request.mapRefusals_checkSender, hrecorded.sender,
      h.sender]

theorem build_of_sameValues {calls calls' : List Call} (h : SameValues calls calls') :
    (recorded {} (settings calls)).build = (recorded {} (settings calls')).build := by
  have hdirect := (isDirect_recorded calls).of_sameValues h
  rw [(build_of_isDirect hdirect).1 (get?_from_recorded _), build_eq_ofParts]

/-! ## Corrections -/

/-- A value that is accepted for a field, with or without an expiry. -/
def accepted (endless : Bool) : Slot → Value
  | .domainName => .text "Forwarder"
  | .domainVersion => .text "1"
  | .domainChainId => .int 1
  | .domainContract | .sender | .recipient => .bytes (List.replicate Address.width 0)
  | .value | .gas | .nonce => .int 0
  | .data => .bytes []
  | .validUntil => if endless then .null else .int 0
  | .typeName => .text "ForwardRequest"
  | .typeSuffix => .text ""

def domainSlots : List Slot := [.domainName, .domainVersion, .domainChainId, .domainContract]

def requestSlots : List Slot :=
  [.sender, .recipient, .value, .gas, .nonce, .data, .validUntil, .typeName, .typeSuffix]

/-- A value that is accepted for each of the fields. -/
def corrections (endless : Bool) : List (Slot × Value) :=
  (domainSlots ++ requestSlots).map fun slot => (slot, accepted endless slot)

/-- The accepted values of some fields as entries. -/
def entriesOf (endless : Bool) (slots : List Slot) : List (String × Value) :=
  slots.map fun slot => (slot.key, accepted endless slot)

def acceptedRequest (endless : Bool) : List (String × Value) :=
  entriesOf endless requestSlots ++ if endless then [("no_expiry", .bool true)] else []

theorem lastValue?_corrections (endless : Bool) (slot : Slot) :
    lastValue? slot (settings (Call.recordAll (corrections endless))) =
      some (accepted endless slot) := by
  cases slot <;> rfl

theorem noExpiry_notMem_corrections (endless : Bool) :
    Setting.noExpiry ∉ settings (Call.recordAll (corrections endless)) := by
  simp [settings, corrections, domainSlots, requestSlots, Call.recordAll, Call.setting?]

/-- Behind the corrections the accepted values are the last ones. -/
theorem isDirect_corrections {calls : List Call} {endless : Bool}
    (h : endless = true ↔ Setting.noExpiry ∈ settings calls) :
    IsDirect (calls ++ Call.recordAll (corrections endless)) (entriesOf endless domainSlots)
      (acceptedRequest endless) := by
  have hlast (slot : Slot) : lastValue? slot
      (settings (calls ++ Call.recordAll (corrections endless))) = some (accepted endless slot) := by
    rw [settings_append, lastValue?_append, lastValue?_corrections, Option.some_or]
  have hno : Setting.noExpiry ∈ settings (calls ++ Call.recordAll (corrections endless)) ↔
      endless = true := by
    rw [settings_append, List.mem_append, or_iff_left (noExpiry_notMem_corrections endless), h]
  refine ⟨fun slot hslot => ?_, fun slot hslot _ => ?_, ?_, ?_⟩
  · rw [hlast]
    cases slot <;> first | exact absurd hslot (by decide) | rfl
  · rw [hlast]
    cases slot <;> first | exact absurd hslot (by decide) | rfl
  · rw [hlast]
    cases endless <;> rfl
  · rw [hno]
    cases endless
    · exact .inr ⟨Bool.false_ne_true, rfl⟩
    · exact .inl ⟨rfl, rfl⟩

theorem exists_ofParts_accepted (endless : Bool) : ∃ tx,
    ofParts (Domain.check (entriesOf endless domainSlots))
      (Request.check (acceptedRequest endless)) = .ok tx := by
  cases endless <;> exact ⟨_, rfl⟩

/-- Whatever was recorded, there are values that put it right. -/
theorem exists_corrections (calls : List Call) : ∃ values tx,
    (recorded {} (settings (calls ++ Call.recordAll values))).build = .ok tx := by
  obtain ⟨endless, hendless⟩ : ∃ endless, endless = true ↔ Setting.noExpiry ∈ settings calls := by
    rcases get?_noExpiry_recorded (settings calls) with ⟨hmem, -⟩ | ⟨hmem, -⟩
    · exact ⟨true, iff_of_true rfl hmem⟩
    · exact ⟨false, iff_of_false Bool.false_ne_true hmem⟩
  have hfrom : Value.get? "from" (acceptedRequest endless) = none := by
    cases endless <;> rfl
  obtain ⟨tx, htx⟩ := exists_ofParts_accepted endless
  exact ⟨corrections endless, tx,
    ((build_of_isDirect (isDirect_corrections hendless)).1 hfrom).trans htx⟩

/-! ## The result -/

/-- The calls of a new builder all end, and its builds come to these results. -/
def Yields (calls : List Call) (session : Session) (results : List (Except Error RelayTx)) : Prop :=
  ∃ b last, (perform {} calls).outcome session = (.ok (b, results), last)

/-- A build comes to what is built of all that was recorded before it. -/
theorem yields_build (before after : List Call) (session : Session) :
    Yields (before ++ .build :: after) session
      (results {} before ++ (recorded {} (settings before)).build ::
        (recorded {} (settings before)).results after) := by
  obtain ⟨last, hlast⟩ := outcome_perform {} (before ++ .build :: after) session
  rw [results_append] at hlast
  exact ⟨_, last, hlast⟩

/-- **Every build of a builder comes to what its parts come to, made directly.** In any sequence of
calls, a build gives what comes of the two parts if they are made by themselves, of the values that
were recorded last; only the name by which the sender goes may differ in a refusal. Sequences that
leave the same last values build the same, and different fields may be recorded in either order.
Whatever a build came to, the next one succeeds once a field is corrected that was all that stood in
the way, and there always are values that correct everything. -/
theorem builds_directly :
    (∀ (before after : List Call) (session : Session), ∃ earlier built later,
      Yields (before ++ .build :: after) session (earlier ++ built :: later) ∧
      earlier.length = before.countP Call.isBuild ∧
      (∃ domain request, IsDirect before domain request ∧ Value.get? "from" request = none) ∧
      ∀ domain request, IsDirect before domain request →
        (Value.get? "from" request = none →
          built = ofParts (Domain.check domain) (Request.check request)) ∧
        built.mapError (Error.mapRefusals Request.unaliased) =
          (ofParts (Domain.check domain) (Request.check request)).mapError
            (Error.mapRefusals Request.unaliased)) ∧
    (∀ (calls calls' : List Call) (session session' : Session), SameValues calls calls' →
      ∃ earlier earlier' built, Yields (calls ++ [Call.build]) session (earlier ++ [built]) ∧
        Yields (calls' ++ [Call.build]) session' (earlier' ++ [built])) ∧
    (∀ (first second : Setting) (before after : List Call),
      (∀ slot, first.value? slot = none ∨ second.value? slot = none) →
      SameValues (before ++ [.record first, .record second] ++ after)
        (before ++ [.record second, .record first] ++ after)) ∧
    (∀ (before : List Call) (slot : Slot) (v : Value) (session : Session) domain request tx,
      IsDirect (before ++ [.record (.set slot v)]) domain request →
      ofParts (Domain.check domain) (Request.check request) = .ok tx →
      ∃ earlier, Yields (before ++ [Call.build, .record (.set slot v)] ++ [Call.build]) session
        (earlier ++ [.ok tx])) ∧
    ∀ (before : List Call) (session : Session), ∃ values earlier tx,
      Yields (before ++ [Call.build] ++ Call.recordAll values ++ [Call.build]) session
        (earlier ++ [.ok tx]) := by
  refine ⟨fun before after session => ?_, fun calls calls' session session' hsame => ?_,
    fun first second before after hdisjoint => .swap hdisjoint before after,
    fun before slot v session domain request tx hdirect htx => ?_, fun before session => ?_⟩
  · exact ⟨_, _, _, yields_build before after session, length_results {} before,
      ⟨_, _, isDirect_recorded before, get?_from_recorded _⟩,
      fun domain request hdirect => build_of_isDirect hdirect⟩
  · have hyields := yields_build calls' [] session'
    rw [← build_of_sameValues hsame] at hyields
    exact ⟨_, _, _, yields_build calls [] session, hyields⟩
  · have hbuilt := (build_of_isDirect (hdirect.of_sameValues (.build before _))).2
    rw [htx] at hbuilt
    have hyields := yields_build (before ++ [Call.build, .record (.set slot v)]) [] session
    rw [Except.mapError_eq_ok_iff.mp hbuilt] at hyields
    exact ⟨_, hyields⟩
  · obtain ⟨values, tx, hbuilt⟩ := exists_corrections (before ++ [Call.build])
    have hyields := yields_build (before ++ [Call.build] ++ Call.recordAll values) [] session
    rw [hbuilt] at hyields
    exact ⟨values, _, tx, hyields⟩

/-- Calls that record everything but the gas. -/
def sampleCalls : List Call :=
  Call.recordAll [(.nonce, .int 0), (.domainName, .text "Forwarder"), (.typeName, .text "Forward"),
    (.domainChainId, .int 1), (.recipient, .bytes (List.replicate Address.width 3)),
    (.sender, .bytes (List.replicate Address.width 2)), (.typeName, .text "ForwardRequest"),
    (.domainContract, .bytes (List.replicate Address.width 1)), (.domainVersion, .text "1")] ++
  [.record .noExpiry]

/-- A build without gas fails, and succeeds once it is recorded. -/
theorem builds_directly_sampleCalls :
    (recorded {} (settings sampleCalls)).build = .error (.relayBuild [⟨some "gas", .missing⟩]) ∧
    IsDirect (sampleCalls ++ [.record (.set .gas (.int 21000))]) sample.domain sample.request ∧
    ∃ earlier, Yields
      (sampleCalls ++ [Call.build, .record (.set .gas (.int 21000))] ++ [Call.build]) {}
      (earlier ++ [.ok RelayTx.sample]) := by
  have hdirect :
      IsDirect (sampleCalls ++ [.record (.set .gas (.int 21000))]) sample.domain sample.request :=
    { domainEntry := fun slot hslot => by
        cases slot <;> first | exact absurd hslot (by decide) | rfl
      requestEntry := fun slot hslot hne => by
        cases slot <;> first | exact absurd rfl hne | exact absurd hslot (by decide) | rfl
      sender := rfl
      noExpiry := .inl ⟨by simp [settings, sampleCalls, Call.recordAll, Call.setting?], rfl⟩ }
  obtain ⟨-, -, -, corrected, -⟩ := builds_directly
  exact ⟨rfl, hdirect, corrected sampleCalls .gas (.int 21000) {} sample.domain sample.request
    RelayTx.sample hdirect rfl⟩

end RelayBuilder

end MetaTx
