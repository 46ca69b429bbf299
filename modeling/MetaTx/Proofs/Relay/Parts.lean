import MetaTx.Proofs.Relay.Checked

/-!
# The parts of a relay transaction, each by itself

A domain and a request are checked field by field, so nothing matters of their entries but what is
looked up for the fields. The sender goes by one of two names, and only in a refusal it can be told
by which.
-/

namespace MetaTx

/-! ## Refusals in other words -/

namespace Field

variable {α β : Type} (g : Refusal → Refusal)

/-- A checked value whose refusals are told in other words. -/
def Checked.mapRefusals : Checked α → Checked α
  | ok a => ok a
  | refused refusals => refused (refusals.map g)

namespace Checked

theorem mapRefusals_map (f : α → β) (x : Checked α) :
    (f <$> x).mapRefusals g = f <$> x.mapRefusals g := by
  cases x <;> rfl

theorem mapRefusals_seq (f : Checked (α → β)) (x : Checked α) :
    (f <*> x).mapRefusals g = f.mapRefusals g <*> x.mapRefusals g := by
  show (ap f x).mapRefusals g = ap (f.mapRefusals g) (x.mapRefusals g)
  cases f <;> cases x <;> simp [ap, mapRefusals]

theorem mapRefusals_andThen (f : α → Checked β) (x : Checked α) :
    (x.andThen f).mapRefusals g = (x.mapRefusals g).andThen fun a => (f a).mapRefusals g := by
  cases x <;> rfl

end Checked

/-! ## Fields by their entries -/

variable {read : Reader α} {name : String} {entries entries' : List (String × Value)}

theorem required_congr (h : Value.get? name entries = Value.get? name entries') :
    required read name entries = required read name entries' := by
  rw [required, required, h]

theorem optional_congr {default : α} (h : Value.get? name entries = Value.get? name entries') :
    optional read default name entries = optional read default name entries' := by
  rw [optional, optional, h]

end Field

/-- An error whose refusals are told in other words. -/
def Error.mapRefusals (g : Field.Refusal → Field.Refusal) : Error → Error
  | relayBuild refusals => relayBuild (refusals.map g)
  | e => e

theorem Error.mapRefusals_id (e : Error) : e.mapRefusals id = e := by
  cases e with
  | relayBuild refusals => exact congrArg relayBuild (List.map_id refusals)
  | _ => rfl

theorem Error.mapError_mapRefusals_id {α : Type} (x : Except Error α) :
    x.mapError (mapRefusals id) = x := by
  cases x with
  | error e => exact congrArg Except.error e.mapRefusals_id
  | ok a => rfl

/-! ## Parts -/

namespace Relay

open MetaTx.Field (Checked Refusal given)

/-- What two parts come to that are made by themselves. Every refusal is one of building, and those
of the domain are told alone. -/
def ofParts : Checked Domain → Checked Request → Except Error RelayTx
  | .refused refusals, _ => .error (.relayBuild refusals)
  | .ok _, .refused refusals => .error (.relayBuild refusals)
  | .ok domain, .ok request => .ok ⟨domain, request⟩

theorem mapError_ofParts (g : Refusal → Refusal) (d : Checked Domain) (r : Checked Request) :
    (ofParts d r).mapError (Error.mapRefusals g) = ofParts (d.mapRefusals g) (r.mapRefusals g) := by
  cases d <;> cases r <;> rfl

theorem build_eq_ofParts (b : RelayBuilder) :
    b.build = ofParts (Domain.check b.domain) (Request.check b.request) := by
  rw [RelayBuilder.build, RelayTx.check]
  cases Domain.check b.domain <;> cases Request.check b.request <;> rfl

/-- The sender goes by the name of its field. -/
def Request.unaliased (refusal : Refusal) : Refusal :=
  if refusal.field? = some "from" then { refusal with field? := some "from_" } else refusal

theorem Request.mapRefusals_given {name : String} (h : name = "from" ∨ name = "from_") (v : Value) :
    (given addressReader name v).mapRefusals unaliased = given addressReader "from_" v := by
  unfold given
  rcases h with rfl | rfl <;> cases addressReader v <;> rfl

/-- Up to the name it goes by, the sender is checked as given. -/
theorem Request.mapRefusals_checkSender (entries : List (String × Value)) :
    (checkSender entries).mapRefusals unaliased =
      match sender? entries with
      | some v => given addressReader "from_" v
      | none => .refused [⟨some "from_", .missing⟩] := by
  unfold checkSender sender?
  split
  · next v hnone hsome =>
    rw [hnone, hsome]
    exact mapRefusals_given (.inr rfl) v
  -- The public name wins, and a sender that is missing is told under it.
  · next hneither =>
    cases hfrom : Value.get? "from" entries with
    | some v =>
      rw [Field.required, hfrom]
      exact mapRefusals_given (.inl rfl) v
    | none =>
      rw [Field.required, hfrom]
      cases hfield : Value.get? "from_" entries with
      | some v => exact absurd hfield (hneither v hfrom)
      | none => rfl

variable {entries entries' : List (String × Value)}

theorem Request.checkSender_congr (hfrom : Value.get? "from" entries = none)
    (hfrom' : Value.get? "from" entries' = none) (h : sender? entries = sender? entries') :
    checkSender entries = checkSender entries' := by
  rw [sender?, sender?, hfrom, hfrom', Option.none_or, Option.none_or] at h
  simp only [checkSender, Field.required, hfrom, hfrom', h]

/-- Only the entries of its fields matter for a domain. -/
theorem Domain.check_congr
    (h : ∀ slot : Slot, slot.isDomain = true →
      Value.get? slot.key entries = Value.get? slot.key entries') :
    check entries = check entries' := by
  have hname : Value.get? "name" entries = Value.get? "name" entries' := h .domainName rfl
  have hversion : Value.get? "version" entries = Value.get? "version" entries' :=
    h .domainVersion rfl
  have hchain : Value.get? "chain_id" entries = Value.get? "chain_id" entries' :=
    h .domainChainId rfl
  have hcontract : Value.get? "verifying_contract" entries =
      Value.get? "verifying_contract" entries' := h .domainContract rfl
  simp only [check, Field.required_congr hname, Field.required_congr hversion,
    Field.required_congr hchain, Field.required_congr hcontract]

/-- Only the entries of its fields matter for a request. -/
theorem Request.mapRefusals_check_congr {g : Refusal → Refusal}
    (hsender : (checkSender entries).mapRefusals g = (checkSender entries').mapRefusals g)
    (h : ∀ slot : Slot, slot.isDomain = false → slot ≠ .sender →
      Value.get? slot.key entries = Value.get? slot.key entries')
    (hno : Value.get? "no_expiry" entries = Value.get? "no_expiry" entries') :
    (check entries).mapRefusals g = (check entries').mapRefusals g := by
  have hto : Value.get? "to" entries = Value.get? "to" entries' := h .recipient rfl (by decide)
  have hvalue : Value.get? "value" entries = Value.get? "value" entries' :=
    h .value rfl (by decide)
  have hgas : Value.get? "gas" entries = Value.get? "gas" entries' := h .gas rfl (by decide)
  have hnonce : Value.get? "nonce" entries = Value.get? "nonce" entries' :=
    h .nonce rfl (by decide)
  have hdata : Value.get? "data" entries = Value.get? "data" entries' := h .data rfl (by decide)
  have htime : Value.get? "valid_until_time" entries = Value.get? "valid_until_time" entries' :=
    h .validUntil rfl (by decide)
  have htype : Value.get? "type_name" entries = Value.get? "type_name" entries' :=
    h .typeName rfl (by decide)
  have hsuffix : Value.get? "type_suffix_data" entries = Value.get? "type_suffix_data" entries' :=
    h .typeSuffix rfl (by decide)
  simp only [check, checkFields, Checked.mapRefusals_andThen, Checked.mapRefusals_seq,
    Checked.mapRefusals_map, hsender, Field.required_congr hto, Field.optional_congr hvalue,
    Field.required_congr hgas, Field.required_congr hnonce, Field.optional_congr hdata,
    Field.optional_congr htime, Field.optional_congr hno, Field.required_congr htype,
    Field.optional_congr hsuffix]

end Relay

end MetaTx
