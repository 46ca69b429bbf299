import MetaTx.ExecuteCommand
import MetaTx.Proofs.Except

/-!
# What a command line says

The options are told in order, and of several of one kind the last one counts. That is written down
below from the end of the events, with the defaults for what is not told. Reading the options one by
one into a draft comes to the same.
-/

namespace MetaTx.ExecuteCommand

open CommandLine (Event Refusal)

/-! ## What is told -/

/-- The text that an event tells for options of a kind. -/
def told? (choice : Choice) : Event Choice → Option String
  | .set other s => if other = choice then some s else none
  | .spare | .refused _ => none

/-- The text of the last option of a kind. -/
def last? (choice : Choice) (events : List (Event Choice)) : Option String :=
  events.reverse.findSome? (told? choice)

/-- The integer of the last option of a kind. -/
def lastInt? (choice : Choice) (events : List (Event Choice)) : Option Int :=
  (last? choice events).bind Text.readInt?

/-- What is told of all that may be left out. -/
def optionsOf (events : List (Event Choice)) : ExecuteOptions where
  data := (last? .data events).getD "0x"
  gas := (lastInt? .gas events).getD 30000
  value := (lastInt? .value events).getD 0
  validUntil? := lastInt? .validUntil events
  noExpiry := (last? .noExpiry events).isSome
  domainName := (last? .domainName events).getD "my name"
  domainVersion := (last? .domainVersion events).getD "1"
  typeName := (last? .typeName events).getD "my name"
  typeSuffix := (last? .typeSuffix events).getD ""
  chainId? := lastInt? .chainId events
  json := (last? .json events).isSome

/-- The kinds of options that are integers. -/
def Choice.isInteger : Choice → Bool
  | nonce | gas | value | validUntil | chainId => true
  | _ => false

/-- An event tells an option, which is an integer where it has to be one. -/
def IsSetting (event : Event Choice) : Prop :=
  ∃ choice s, event = .set choice s ∧ (choice.isInteger → ∃ n, Text.readInt? s = some n)

/-- A command is what the events tell. -/
structure IsTold (c : ExecuteCommand) (events : List (Event Choice)) : Prop where
  forwarder : last? .forwarder events = some c.forwarder
  recipient : last? .recipient events = some c.recipient
  nonce : lastInt? .nonce events = some c.nonce
  options : c.toExecuteOptions = optionsOf events
  settings : ∀ event ∈ events, IsSetting event

/-! ## Reading -/

/-- A draft holds what the events tell. Only a draft without spare arguments has to be told by
settings alone. -/
structure Draft.Holds (d : Draft) (events : List (Event Choice)) : Prop where
  forwarder : d.forwarder? = last? .forwarder events
  recipient : d.recipient? = last? .recipient events
  nonce : d.nonce? = lastInt? .nonce events
  options : d.toExecuteOptions = optionsOf events
  settings : d.hasSpare = false → ∀ event ∈ events, IsSetting event

theorem last?_concat_set (choice other : Choice) (s : String) (events : List (Event Choice)) :
    last? choice (events ++ [.set other s]) =
      if other = choice then some s else last? choice events := by
  rw [last?, List.reverse_append, List.reverse_singleton, List.singleton_append,
    List.findSome?_cons, told?]
  split <;> simp_all [last?]

theorem last?_concat_spare (choice : Choice) (events : List (Event Choice)) :
    last? choice (events ++ [.spare]) = last? choice events := by
  rw [last?, List.reverse_append]
  rfl

theorem lastInt?_concat_spare (choice : Choice) (events : List (Event Choice)) :
    lastInt? choice (events ++ [.spare]) = lastInt? choice events := by
  rw [lastInt?, last?_concat_spare, lastInt?]

theorem lastInt?_concat_set {choice other : Choice} (s : String) (events : List (Event Choice)) :
    lastInt? choice (events ++ [.set other s]) =
      if other = choice then Text.readInt? s else lastInt? choice events := by
  rw [lastInt?, last?_concat_set]
  split <;> rfl

namespace Draft

variable {d d' : Draft} {events rest : List (Event Choice)}

theorem holds_nil : Draft.Holds {} [] := ⟨rfl, rfl, rfl, rfl, by simp⟩

theorem readInt?_of_integer {s : String} {n : Int} (h : integer s = .ok n) :
    Text.readInt? s = some n := by
  unfold integer at h
  split at h
  · next m hread =>
    cases h
    exact hread
  · cases h

/-- An option that is taken is an integer where it has to be one, and is nothing spare. -/
theorem isSetting_of_set {choice : Choice} {s : String} (hset : d.set choice s = .ok d') :
    IsSetting (.set choice s) ∧ d'.hasSpare = d.hasSpare := by
  cases choice
  case nonce | gas | value | validUntil | chainId =>
    obtain ⟨n, hn, hd'⟩ := Except.bind_eq_ok_iff.mp hset
    cases hd'
    exact ⟨⟨_, s, rfl, fun _ => ⟨n, readInt?_of_integer hn⟩⟩, rfl⟩
  all_goals
    cases hset
    exact ⟨⟨_, s, rfl, by simp [Choice.isInteger]⟩, rfl⟩

/-- One more option. -/
theorem Holds.set (h : d.Holds events) {choice : Choice} {s : String}
    (hset : d.set choice s = .ok d') : d'.Holds (events ++ [.set choice s]) := by
  obtain ⟨hsetting, hspare⟩ := isSetting_of_set hset
  have hsettings : d'.hasSpare = false →
      ∀ event ∈ events ++ [.set choice s], IsSetting event := by
    intro hno event hevent
    rcases List.mem_append.mp hevent with hevent | hevent
    · exact h.settings (hspare ▸ hno) event hevent
    · rw [List.mem_singleton.mp hevent]
      exact hsetting
  obtain ⟨hforwarder, hrecipient, hnonce, hoptions, -⟩ := h
  cases choice
  case nonce | gas | value | validUntil | chainId =>
    obtain ⟨n, hn, hd'⟩ := Except.bind_eq_ok_iff.mp hset
    have hread := readInt?_of_integer hn
    cases hd'
    refine ⟨?_, ?_, ?_, ?_, hsettings⟩
    all_goals simp [last?_concat_set, lastInt?_concat_set, optionsOf, *]
  all_goals
    cases hset
    refine ⟨?_, ?_, ?_, ?_, hsettings⟩
    all_goals simp [last?_concat_set, lastInt?_concat_set, optionsOf, *]

theorem Holds.spare (h : d.Holds events) :
    ({ d with hasSpare := true } : Draft).Holds (events ++ [.spare]) where
  forwarder := by rw [last?_concat_spare]; exact h.forwarder
  recipient := by rw [last?_concat_spare]; exact h.recipient
  nonce := by rw [lastInt?_concat_spare]; exact h.nonce
  options := by
    simp only [optionsOf, last?_concat_spare, lastInt?_concat_spare]
    exact h.options
  settings := by
    intro hspare
    cases hspare

theorem Holds.isTold (h : d.Holds events) {c : ExecuteCommand} (hc : d.command = .ok c) :
    c.IsTold events := by
  unfold command at hc
  split at hc
  · next forwarder recipient nonce hforwarder hrecipient hnonce =>
    split at hc
    · cases hc
    · next hspare =>
      cases hc
      exact ⟨h.forwarder ▸ hforwarder, h.recipient ▸ hrecipient, h.nonce ▸ hnonce, h.options,
        h.settings (by simpa using hspare)⟩
  · cases hc

/-- The rest of the options, from any draft. -/
theorem isTold_of_finish (h : d.Holds events) {c : ExecuteCommand}
    (hc : d.finish rest = .ok (.execute c)) : c.IsTold (events ++ rest) := by
  induction rest generalizing d events with
  | nil =>
    rw [List.append_nil]
    rw [finish] at hc
    cases hcommand : d.command with
    | error refusal => rw [hcommand] at hc; cases hc
    | ok command =>
      rw [hcommand] at hc
      cases hc
      exact h.isTold hcommand
  | cons event rest ih =>
    rw [List.append_cons]
    cases event with
    | refused refusal => cases hc
    | spare => exact ih h.spare hc
    | set choice s =>
      by_cases hhelp : choice = .help
      · subst hhelp
        cases hc
      · rw [finish] at hc
        · cases hset : d.set choice s with
          | error refusal => rw [hset] at hc; cases hc
          | ok d' =>
            rw [hset] at hc
            exact ih (h.set hset) hc
        · exact hhelp

end Draft

/-- A command line that is accepted asks for what its arguments tell. -/
theorem isTold_of_arguments {arguments : List String} {c : ExecuteCommand}
    (h : ofArguments arguments = .ok (.execute c)) : c.IsTold (grammar.events arguments) :=
  Draft.isTold_of_finish Draft.holds_nil h

end MetaTx.ExecuteCommand
