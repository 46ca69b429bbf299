import Mathlib.Data.List.Induction
import MetaTx.Proofs.Relay.Checked
import MetaTx.Proofs.Service.Session

/-!
# Runs of a builder

What a builder holds after any number of calls, in any order and with values of any kind. None of
the calls can fail, since nothing is looked at before the relay transaction is built. The statement
that there is no expiry has an entry of its own, which no other call writes to.
-/

namespace MetaTx

/-! ## Entries -/

namespace Relay

theorem get?_putEntry (key key' : String) (v : Value) (entries : List (String × Value)) :
    Value.get? key' (putEntry key v entries) =
      if key = key' then some v else Value.get? key' entries := by
  induction entries with
  | nil => rfl
  | cons entry rest ih =>
    obtain ⟨k, w⟩ := entry
    by_cases hk : k = key
    · subst hk
      by_cases hkey : k = key'
      · simp [putEntry, Value.get?, hkey]
      · simp [putEntry, Value.get?, hkey]
    · by_cases hkey : key = key'
      · subst hkey
        simp [putEntry, Value.get?, hk, ih]
      · simp [putEntry, Value.get?, hk, hkey, ih]

theorem Slot.key_ne_noExpiry (slot : Slot) : slot.key ≠ "no_expiry" := by
  cases slot <;> decide

end Relay

namespace RelayBuilder

open Relay

/-! ## Calls -/

/-- A call that a builder records. -/
inductive Setting
  | set (slot : Slot) (v : Value)
  | noExpiry

namespace Setting

def apply (b : RelayBuilder) : Setting → Run RelayBuilder
  | set slot v => return b.set slot v
  | noExpiry => b.noExpiry

/-- What the builder holds after a call, apart from the notice that the call may leave. -/
def after (b : RelayBuilder) : Setting → RelayBuilder
  | set slot v => b.set slot v
  | noExpiry => b.endless

theorem outcome_apply (b : RelayBuilder) (setting : Setting) (session : Session) :
    ∃ last, (setting.apply b).outcome session = (.ok (setting.after b), last) := by
  cases setting with
  | set slot v => exact ⟨_, rfl⟩
  | noExpiry => exact ⟨_, rfl⟩

end Setting

/-- Makes the calls one after the other. -/
def record (b : RelayBuilder) (settings : List Setting) : Run RelayBuilder :=
  settings.foldlM Setting.apply b

/-- What the builder holds after the calls. -/
def recorded (b : RelayBuilder) (settings : List Setting) : RelayBuilder :=
  settings.foldl Setting.after b

theorem recorded_append_singleton (b : RelayBuilder) (settings : List Setting) (setting : Setting) :
    b.recorded (settings ++ [setting]) = setting.after (b.recorded settings) := by
  rw [recorded, List.foldl_append]
  rfl

theorem outcome_record (b : RelayBuilder) (settings : List Setting) (session : Session) :
    ∃ last, (b.record settings).outcome session = (.ok (b.recorded settings), last) := by
  induction settings generalizing b session with
  | nil => exact ⟨session, rfl⟩
  | cons setting rest ih =>
    obtain ⟨between, hfirst⟩ := setting.outcome_apply b session
    obtain ⟨last, hrest⟩ := ih (setting.after b) between
    refine ⟨last, ?_⟩
    show ((setting.apply b) >>= fun b => record b rest).outcome session = _
    rw [Run.outcome_bind_ok hfirst]
    exact hrest

/-! ## No expiry -/

theorem get?_request_set {slot : Slot} {key : String} (h : slot.key ≠ key) (b : RelayBuilder)
    (v : Value) : Value.get? key (b.set slot v).request = Value.get? key b.request := by
  unfold set
  split
  · rfl
  · show Value.get? key (putEntry slot.key v b.request) = _
    rw [get?_putEntry, if_neg h]

theorem get?_noExpiry_after (b : RelayBuilder) (setting : Setting) :
    Value.get? "no_expiry" (setting.after b).request =
      match setting with
      | .set _ _ => Value.get? "no_expiry" b.request
      | .noExpiry => some (.bool true) := by
  cases setting with
  | noExpiry =>
    show Value.get? "no_expiry" (putEntry "no_expiry" (.bool true) b.request) = _
    rw [get?_putEntry, if_pos rfl]
  | set slot v => exact get?_request_set slot.key_ne_noExpiry b v

/-- Once it is stated that there is no expiry this stays so, and nothing else states it. -/
theorem get?_noExpiry_recorded (settings : List Setting) :
    (Setting.noExpiry ∈ settings ∧
        Value.get? "no_expiry" (recorded {} settings).request = some (.bool true)) ∨
      (Setting.noExpiry ∉ settings ∧
        Value.get? "no_expiry" (recorded {} settings).request = none) := by
  induction settings using List.reverseRecOn with
  | nil => exact .inr ⟨List.not_mem_nil, rfl⟩
  | append_singleton settings setting ih =>
    rw [recorded_append_singleton, get?_noExpiry_after]
    cases setting with
    | noExpiry => exact .inl ⟨by simp, rfl⟩
    | set slot v => simpa using ih

end RelayBuilder

/-! ## No expiry in what is built -/

namespace RelayBuilder

end RelayBuilder

end MetaTx
