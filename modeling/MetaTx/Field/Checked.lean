import MetaTx.Field.Refusal

/-!
# Checked fields

A record is read field by field, and every refused field is reported, in the order in
which the record lists them. A checked value is a value or the refusals that were met;
applied to another one it gathers the refusals of both.
-/

namespace MetaTx.Field

/-- A value, or why there is none. -/
inductive Checked (α : Type)
  | ok (a : α)
  | refused (refusals : List Refusal)

namespace Checked

def map {α β : Type} (f : α → β) : Checked α → Checked β
  | ok a => ok (f a)
  | refused rs => refused rs

/-- Applies one checked value to another. -/
def ap {α β : Type} : Checked (α → β) → Checked α → Checked β
  | ok f, ok a => ok (f a)
  | ok _, refused rs => refused rs
  | refused rs, ok _ => refused rs
  | refused rs, refused ss => refused (rs ++ ss)

instance : Applicative Checked where
  pure := ok
  map := map
  seq f a := ap f (a ())

/-- Goes on with a value, if there is one. -/
def andThen {α β : Type} (f : α → Checked β) : Checked α → Checked β
  | ok a => f a
  | refused rs => refused rs

def toExcept {α : Type} : Checked α → Except (List Refusal) α
  | ok a => .ok a
  | refused rs => .error rs

theorem seq_eq_ok_iff {α β : Type} {f : Checked (α → β)} {a : Checked α} {b : β} :
    (f <*> a) = ok b ↔ ∃ g x, f = ok g ∧ a = ok x ∧ g x = b := by
  show ap f a = ok b ↔ _
  cases f <;> cases a <;> simp [ap]

theorem map_eq_ok_iff {α β : Type} {f : α → β} {a : Checked α} {b : β} :
    (f <$> a) = ok b ↔ ∃ x, a = ok x ∧ f x = b := by
  show map f a = ok b ↔ _
  cases a <;> simp [map]

end Checked

/-- How a value becomes that of a field. -/
abbrev Reader (α : Type) := Value → Except Reason α

/-- A field that is given under a name. -/
def given {α : Type} (read : Reader α) (name : String) (v : Value) : Checked α :=
  match read v with
  | .ok a => .ok a
  | .error reason => .refused [⟨some name, reason⟩]

/-- A field that has to be given. -/
def required {α : Type} (read : Reader α) (name : String)
    (entries : List (String × Value)) : Checked α :=
  match Value.get? name entries with
  | some v => given read name v
  | none => .refused [⟨some name, .missing⟩]

/-- A field with a default. -/
def optional {α : Type} (read : Reader α) (default : α) (name : String)
    (entries : List (String × Value)) : Checked α :=
  match Value.get? name entries with
  | some v => given read name v
  | none => .ok default

end MetaTx.Field
