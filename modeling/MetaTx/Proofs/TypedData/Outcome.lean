import MetaTx.Proofs.Error
import MetaTx.Proofs.Key.Private
import MetaTx.Proofs.Service.Session
import MetaTx.Proofs.TypedData.Message
import MetaTx.Signer

/-!
# What becomes of a payload

A payload is hashed, refused, or told by one of four faults, which those who wait for encoding errors do
not catch. The faults come from parts that are no mappings, from a domain or a primary type that differs
from what the types say, and from messages that break. A payload with any of that in it has no digest,
but it can be refused for something else before the fault comes up.
-/

namespace MetaTx.TypedData

variable {payload types domain : List (String × Value)} {f : Fault} {e : Error}

/-! ## Steps -/

def givenPart (key : String) (payload : List (String × Value)) : Except Error Value := do
  collection (← require key payload)

/-- The types and the domain of a payload, the domain only if it is a mapping. -/
def givenParts (payload : List (String × Value)) :
    Except Error (List (String × Value) × Option (List (String × Value))) := do
  let given ← givenPart "types" payload
  let domain ← givenPart "domain" payload
  if namesDomainType given && (entries? domain).isNone then .error (.fault .noEntries)
  else match entries? given with
    | some types => .ok (types, entries? domain)
    | none => .error refused

/-- Compares the type of domains with the domain, if it is among the types. -/
def checkDomainType (types domain : List (String × Value)) : Except Error Unit :=
  match Value.get? domainType types with
  | some listed => do
    if namesMatch (← listedNames listed) domain then return () else throw (.fault .typeMismatch)
  | none => return ()

/-- The types of messages. -/
def messageTypes (types : List (String × Value)) : List (String × Value) :=
  types.filter fun (name, _) => name != domainType

/-- Compares the primary type with what a payload gives as such, if it does. -/
def checkPrimaryType (payload types : List (String × Value)) : Except Error Unit :=
  match Value.get? "primaryType" payload with
  | some given => do
    let primary ← primaryType (← readSchema types)
    match given with
    | .text name => if name == primary then return () else throw (.fault .typeMismatch)
    | _ => throw (.fault .typeMismatch)
  | none => return ()

/-- The bytes for a payload whose parts go together. -/
def content (domain types : List (String × Value)) (message : Value) : Except Error Bytes := do
  let domainHash ← domainHash domain
  let schema ← readSchema types
  let primary ← primaryType schema
  return Message.structured domainHash (← structHash schema primary message)

/-- The steps from a payload to its bytes. -/
def steps (payload : List (String × Value)) : Except Error Bytes := do
  let (types, domain?) ← givenParts payload
  checkDomainType types (domain?.getD [])
  checkPrimaryType payload (messageTypes types)
  let message ← require "message" payload
  match domain? with
  | some domain => content domain (messageTypes types) message
  | none => throw (.fault .noEntries)

theorem bind_checkDomainType (rest : Except Error Bytes) :
    (checkDomainType types domain >>= fun _ => rest) =
      match Value.get? domainType types with
      | some listed => do
        let names ← listedNames listed
        if !namesMatch names domain then
          let _ ← (throw (.fault .typeMismatch) : Except Error Unit)
          rest
        else rest
      | _ => rest := by
  unfold checkDomainType
  cases Value.get? domainType types with
  | none => rfl
  | some listed =>
    simp only [bind_assoc]
    congr 1
    funext names
    cases namesMatch names domain <;> rfl

theorem bind_checkPrimaryType (rest : Except Error Bytes) :
    (checkPrimaryType payload types >>= fun _ => rest) =
      match Value.get? "primaryType" payload with
      | some given => do
        let primary ← primaryType (← readSchema types)
        let agrees := match given with
          | .text name => name == primary
          | _ => false
        if !agrees then
          let _ ← (throw (.fault .typeMismatch) : Except Error Unit)
          rest
        else rest
      | _ => rest := by
  unfold checkPrimaryType
  cases Value.get? "primaryType" payload with
  | none => rfl
  | some given =>
    simp only [bind_assoc]
    congr 1
    funext schema
    congr 1
    funext primary
    cases given with
    | text name => by_cases hname : name == primary <;> simp only [hname] <;> rfl
    | null | bool _ | int _ | float _ | bytes _ | list _ | map _ => rfl

theorem preimage_eq_steps (payload : List (String × Value)) : preimage payload = steps payload := by
  unfold preimage steps givenParts givenPart
  simp only [bind_assoc]
  congr 1
  funext given
  congr 1
  funext given
  congr 1
  funext domain
  congr 1
  funext domain
  generalize entries? domain = domain?
  split
  · rfl
  cases entries? given with
  | none => rfl
  | some types =>
    refine (bind_checkDomainType _).symm.trans ?_
    rw [Except.ok_bind]
    congr 1
    funext _
    refine (bind_checkPrimaryType _).symm.trans ?_
    congr 1
    funext _
    congr 1
    funext message
    cases domain? <;> rfl

/-! ## Faults of payloads -/

/-- Whether a member has a type that is neither missing nor a row of characters. -/
def HasOddType (types : List (String × Value)) : Prop :=
  ∃ name items entries v, (name, .list items) ∈ types ∧ .map entries ∈ items ∧
    Value.get? "type" entries = some v ∧ (∀ s, v ≠ .text s) ∧ ∀ bs, v ≠ .bytes bs

/-- The schema of a domain has the members that are there. -/
def domainSchema (domain : List (String × Value)) : Schema :=
  [(domainType, domainMembers.filter (isPresent domain))]

/-- Whether a payload has these types of messages and this primary type. -/
def HasSchema (payload : List (String × Value)) (schema : Schema) (primary : String) : Prop :=
  ∃ types, Value.get? "types" payload = some (.map types) ∧
    readSchema (messageTypes types) = .ok schema ∧ primaryType schema = .ok primary

/-- What a payload has in it that is not refused as such, and the fault that it is told by. -/
inductive Leaks (payload : List (String × Value)) : Fault → Prop
  | types {v : Value} (h : Value.get? "types" payload = some v) (hmap : ∀ entries, v ≠ .map entries)
      (hlist : ∀ items, v ≠ .list items) : Leaks payload .noEntries
  | domain {v : Value} (h : Value.get? "domain" payload = some v)
      (hmap : ∀ entries, v ≠ .map entries) : Leaks payload .noEntries
  | memberType {types : List (String × Value)} (htypes : Value.get? "types" payload = some (.map types))
      (h : HasOddType (messageTypes types)) : Leaks payload .noEntries
  | domainType {types domain : List (String × Value)} {listed : Value} {names : List Value}
      (htypes : Value.get? "types" payload = some (.map types))
      (hdomain : Value.get? "domain" payload = some (.map domain))
      (hlisted : Value.get? domainType types = some listed) (hnames : listedNames listed = .ok names)
      (h : namesMatch names domain = false) : Leaks payload .typeMismatch
  | primaryType {schema : Schema} {primary : String} {given : Value}
      (hschema : HasSchema payload schema primary)
      (hgiven : Value.get? "primaryType" payload = some given) (h : given ≠ .text primary) :
      Leaks payload .typeMismatch
  | domainValue {domain : List (String × Value)} {f : Fault}
      (hdomain : Value.get? "domain" payload = some (.map domain))
      (h : MessageBreaks (domainSchema domain) (domainMembers.filter (isPresent domain))
        (.map domain) f) : Leaks payload f
  | message {schema : Schema} {primary : String} {message : Value} {f : Fault}
      (hschema : HasSchema payload schema primary)
      (hmessage : Value.get? "message" payload = some message)
      (h : MessageBreaks schema ((schema.lookup primary).getD []) message f) : Leaks payload f

theorem Leaks.fault_eq (h : Leaks payload f) :
    f = .noEntries ∨ f = .typeMismatch ∨ f = .abiType ∨ f = .abiRange := by
  cases h with
  | types | domain | memberType => exact .inl rfl
  | domainType | primaryType => exact .inr (.inl rfl)
  | domainValue _ h | message _ _ h => exact h.fault_eq.imp_right .inr

/-! ## Reading -/

theorem require_eq_ok {key : String} {v : Value} (h : require key payload = .ok v) :
    Value.get? key payload = some v := by
  unfold require at h
  split at h
  · next w hw => rw [hw, Except.ok.inj h]
  · cases h

theorem require_eq_error {key : String} (h : require key payload = .error e) : e = refused := by
  unfold require at h
  split at h
  · cases h
  · exact (Except.error.inj h).symm

theorem givenPart_eq_error {key : String} (h : givenPart key payload = .error e) :
    e = refused ∨ e = .fault .noEntries ∧ ∃ v, Value.get? key payload = some v ∧
      (∀ entries, v ≠ .map entries) ∧ ∀ items, v ≠ .list items := by
  rcases Except.bind_eq_error_iff.mp h with h | ⟨v, hv, h⟩
  · exact .inl (require_eq_error h)
  · refine .inr ?_
    cases v with
    | map _ | list _ => cases h
    | null | bool _ | int _ | float _ | text _ | bytes _ =>
      exact ⟨(Except.error.inj h).symm, _, require_eq_ok hv, nofun, nofun⟩

theorem givenPart_eq_ok {key : String} {v : Value} (h : givenPart key payload = .ok v) :
    Value.get? key payload = some v ∧ ((∃ entries, v = .map entries) ∨ ∃ items, v = .list items) := by
  obtain ⟨w, hw, h⟩ := Except.bind_eq_ok_iff.mp h
  have hget := require_eq_ok hw
  cases w with
  | map entries =>
    obtain rfl := Except.ok.inj h
    exact ⟨hget, .inl ⟨entries, rfl⟩⟩
  | list items =>
    obtain rfl := Except.ok.inj h
    exact ⟨hget, .inr ⟨items, rfl⟩⟩
  | null | bool _ | int _ | float _ | text _ | bytes _ => cases h

theorem entries?_eq_some {v : Value} {entries : List (String × Value)}
    (h : entries? v = some entries) : v = .map entries := by
  cases v with
  | map _ => rw [Option.some.inj h]
  | null | bool _ | int _ | float _ | text _ | bytes _ | list _ => cases h

theorem ne_map_of_entries? {v : Value} (h : entries? v = none) : ∀ entries, v ≠ .map entries := by
  rintro entries rfl
  cases h

theorem listedNames_eq_error {v : Value} (h : listedNames v = .error e) : e = refused := by
  unfold listedNames at h
  split at h
  · obtain ⟨item, -, h⟩ := Except.exists_mem_of_mapM_eq_error h
    split at h
    · rcases Except.bind_eq_error_iff.mp h with h | ⟨name, -, h⟩
      · exact require_eq_error h
      · split at h
        · exact (Except.error.inj h).symm
        · exact (Except.error.inj h).symm
        · cases h
    · exact (Except.error.inj h).symm
  · cases h
  · cases h
  · cases h
  · exact (Except.error.inj h).symm

theorem readMember_eq_error {v : Value} (h : readMember v = .error e) :
    e = refused ∨ e = .fault .noEntries ∧ ∃ entries w, v = .map entries ∧
      Value.get? "type" entries = some w ∧ (∀ s, w ≠ .text s) ∧ ∀ bs, w ≠ .bytes bs := by
  unfold readMember at h
  split at h
  · next entries =>
    split at h
    · split at h
      · cases h
      · exact .inl (Except.error.inj h).symm
    · exact .inl (Except.error.inj h).symm
    · exact .inl (Except.error.inj h).symm
    · next w htext hbytes hw =>
      refine .inr ⟨(Except.error.inj h).symm, entries, w, rfl, hw, ?_, ?_⟩
      · rintro s rfl
        exact htext s rfl
      · rintro bs rfl
        exact hbytes bs rfl
  · exact .inl (Except.error.inj h).symm

theorem readSchema_eq_error (h : readSchema types = .error e) :
    e = refused ∨ e = .fault .noEntries ∧ HasOddType types := by
  obtain ⟨⟨name, members⟩, hmem, h⟩ := Except.exists_mem_of_mapM_eq_error h
  have hmembers : readMembers members = .error e := Except.eq_error_of_bind_pure h
  unfold readMembers at hmembers
  split at hmembers
  · next items =>
    obtain ⟨item, hitem, hread⟩ := Except.exists_mem_of_mapM_eq_error hmembers
    rcases readMember_eq_error hread with he | ⟨he, entries, w, rfl, hw, htext, hbytes⟩
    · exact .inl he
    · exact .inr ⟨he, name, items, entries, w, hmem, hitem, hw, htext, hbytes⟩
  · cases hmembers
  · cases hmembers
  · cases hmembers
  · exact .inl (Except.error.inj hmembers).symm

theorem not_hasOddType {schema : Schema} (h : readSchema types = .ok schema) :
    ¬HasOddType types := by
  rintro ⟨name, items, entries, v, hmem, hitem, hv, htext, hbytes⟩
  obtain ⟨read, hread⟩ := Except.exists_of_mapM_eq_ok h _ hmem
  obtain ⟨members, hmembers, -⟩ := Except.bind_eq_ok_iff.mp hread
  obtain ⟨member, hmember⟩ := Except.exists_of_mapM_eq_ok hmembers _ hitem
  cases v with
  | text s => exact htext s rfl
  | bytes bs => exact hbytes bs rfl
  | null | bool _ | int _ | float _ | list _ | map _ =>
    rw [readMember, hv] at hmember
    cases hmember

theorem primaryType_eq_error {schema : Schema} (h : primaryType schema = .error e) :
    e = refused := by
  unfold primaryType at h
  dsimp only at h
  split at h
  · cases h
  · exact (Except.error.inj h).symm

/-! ## Outcomes of the steps -/

theorem givenParts_eq_error (h : givenParts payload = .error e) : IsTold (Leaks payload) e := by
  rcases Except.bind_eq_error_iff.mp h with h | ⟨given, -, h⟩
  · rcases givenPart_eq_error h with he | ⟨he, v, hv, hmap, hlist⟩
    · exact .inl he
    · exact .inr ⟨_, .types hv hmap hlist, he⟩
  rcases Except.bind_eq_error_iff.mp h with h | ⟨domain, hdomain, h⟩
  · rcases givenPart_eq_error h with he | ⟨he, v, hv, hmap, -⟩
    · exact .inl he
    · exact .inr ⟨_, .domain hv hmap, he⟩
  split at h
  · next hnames =>
    have hnone := Option.isNone_iff_eq_none.mp (Bool.and_eq_true_iff.mp hnames).2
    cases h
    exact .inr ⟨_, .domain (givenPart_eq_ok hdomain).1 (ne_map_of_entries? hnone), rfl⟩
  · split at h
    · cases h
    · exact .inl (Except.error.inj h).symm

theorem of_givenParts {domain? : Option (List (String × Value))}
    (h : givenParts payload = .ok (types, domain?)) :
    Value.get? "types" payload = some (.map types) ∧
      (∃ v, Value.get? "domain" payload = some v ∧ domain? = entries? v) ∧
      ((Value.get? domainType types).isSome = true → domain?.isSome = true) := by
  obtain ⟨given, hgiven, h⟩ := Except.bind_eq_ok_iff.mp h
  obtain ⟨domain, hdomain, h⟩ := Except.bind_eq_ok_iff.mp h
  split at h
  · cases h
  next hnames =>
  split at h
  · next found hfound =>
    obtain ⟨rfl, rfl⟩ := Prod.mk.inj (Except.ok.inj h)
    obtain rfl := entries?_eq_some hfound
    refine ⟨(givenPart_eq_ok hgiven).1, ⟨domain, (givenPart_eq_ok hdomain).1, rfl⟩, fun hnamed => ?_⟩
    rw [namesDomainType, hnamed, Bool.true_and, Bool.not_eq_true, Option.isNone_eq_false_iff] at hnames
    exact hnames
  · cases h

theorem checkDomainType_eq_error (h : checkDomainType types domain = .error e) :
    e = refused ∨ e = .fault .typeMismatch ∧ ∃ listed names,
      Value.get? MetaTx.TypedData.domainType types = some listed ∧ listedNames listed = .ok names ∧
        namesMatch names domain = false := by
  unfold checkDomainType at h
  split at h
  · next listed hlisted =>
    rcases Except.bind_eq_error_iff.mp h with h | ⟨names, hnames, h⟩
    · exact .inl (listedNames_eq_error h)
    · split at h
      · cases h
      · next hmatch =>
        exact .inr ⟨(Except.error.inj h).symm, listed, names, hlisted, hnames,
          Bool.not_eq_true _ ▸ hmatch⟩
  · cases h

theorem namesMatch_of_checkDomainType {listed : Value} {names : List Value}
    (h : checkDomainType types domain = .ok ()) (hlisted : Value.get? domainType types = some listed)
    (hnames : listedNames listed = .ok names) : namesMatch names domain = true := by
  rw [checkDomainType, hlisted] at h
  simp only [hnames, Except.ok_bind] at h
  split at h
  · next hmatch => exact hmatch
  · cases h

theorem checkPrimaryType_eq_error (h : checkPrimaryType payload types = .error e) :
    e = refused ∨ (e = .fault .noEntries ∧ HasOddType types) ∨
      e = .fault .typeMismatch ∧ ∃ schema primary given, readSchema types = .ok schema ∧
        primaryType schema = .ok primary ∧ Value.get? "primaryType" payload = some given ∧
          given ≠ .text primary := by
  unfold checkPrimaryType at h
  split at h
  · next given hgiven =>
    rcases Except.bind_eq_error_iff.mp h with h | ⟨schema, hschema, h⟩
    · exact (readSchema_eq_error h).imp_right .inl
    rcases Except.bind_eq_error_iff.mp h with h | ⟨primary, hprimary, h⟩
    · exact .inl (primaryType_eq_error h)
    split at h
    · next name =>
      split at h
      · cases h
      · next hname =>
        refine .inr (.inr ⟨(Except.error.inj h).symm, schema, primary, _, hschema, hprimary, hgiven, ?_⟩)
        intro hsame
        cases hsame
        exact hname (beq_self_eq_true primary)
    · next hother =>
      refine .inr (.inr ⟨(Except.error.inj h).symm, schema, primary, _, hschema, hprimary, hgiven, ?_⟩)
      rintro rfl
      exact hother primary rfl
  · cases h

theorem given_eq_of_checkPrimaryType {schema : Schema} {primary : String} {given : Value}
    (h : checkPrimaryType payload types = .ok ()) (hschema : readSchema types = .ok schema)
    (hprimary : primaryType schema = .ok primary)
    (hgiven : Value.get? "primaryType" payload = some given) : given = .text primary := by
  rw [checkPrimaryType, hgiven] at h
  simp only [hschema, hprimary, Except.ok_bind] at h
  split at h
  · next name =>
    split at h
    · next hname => rw [eq_of_beq hname]
    · cases h
  · cases h

theorem domainHash_eq_error (h : domainHash domain = .error e) :
    IsTold (MessageBreaks (domainSchema domain) (domainMembers.filter (isPresent domain))
      (.map domain)) e := by
  unfold domainHash at h
  dsimp only at h
  split at h
  · exact .inl (Except.error.inj h).symm
  · have htold := isTold_structHash h
    rw [List.lookup_cons_self] at htold
    exact htold

theorem not_messageBreaks_of_domainHash {hash : Bytes} (h : domainHash domain = .ok hash) :
    ¬MessageBreaks (domainSchema domain) (domainMembers.filter (isPresent domain)) (.map domain) f := by
  unfold domainHash at h
  dsimp only at h
  split at h
  · cases h
  · have hnot := not_messageBreaks (f := f) h
    rw [List.lookup_cons_self] at hnot
    exact hnot

/-! ## Outcomes -/

theorem content_eq_error {message : Value} (htypes : Value.get? "types" payload = some (.map types))
    (hdomain : Value.get? "domain" payload = some (.map domain))
    (hmessage : Value.get? "message" payload = some message)
    (h : content domain (messageTypes types) message = .error e) : IsTold (Leaks payload) e := by
  rcases Except.bind_eq_error_iff.mp h with h | ⟨hash, -, h⟩
  · exact (domainHash_eq_error h).imp fun f hf => .domainValue hdomain hf
  rcases Except.bind_eq_error_iff.mp h with h | ⟨schema, hschema, h⟩
  · rcases readSchema_eq_error h with he | ⟨he, hodd⟩
    · exact .inl he
    · exact .inr ⟨_, .memberType htypes hodd, he⟩
  rcases Except.bind_eq_error_iff.mp h with h | ⟨primary, hprimary, h⟩
  · exact .inl (primaryType_eq_error h)
  exact (isTold_structHash (Except.eq_error_of_bind_pure h)).imp fun f hf =>
    .message ⟨types, htypes, hschema, hprimary⟩ hmessage hf

theorem isTold_of_preimage (h : preimage payload = .error e) : IsTold (Leaks payload) e := by
  rw [preimage_eq_steps] at h
  rcases Except.bind_eq_error_iff.mp h with h | ⟨⟨types, domain?⟩, hparts, h⟩
  · exact givenParts_eq_error h
  obtain ⟨htypes, ⟨v, hv, hdomain⟩, hnamed⟩ := of_givenParts hparts
  rcases Except.bind_eq_error_iff.mp h with h | ⟨_, -, h⟩
  · rcases checkDomainType_eq_error h with he | ⟨he, listed, names, hlisted, hnames, hmatch⟩
    · exact .inl he
    · obtain ⟨domain, rfl⟩ := Option.isSome_iff_exists.mp (hnamed (Option.isSome_of_eq_some hlisted))
      obtain rfl := entries?_eq_some hdomain.symm
      exact .inr ⟨_, .domainType htypes hv hlisted hnames hmatch, he⟩
  rcases Except.bind_eq_error_iff.mp h with h | ⟨_, -, h⟩
  · rcases checkPrimaryType_eq_error h with
      he | ⟨he, hodd⟩ | ⟨he, schema, primary, given, hschema, hprimary, hgiven, hother⟩
    · exact .inl he
    · exact .inr ⟨_, .memberType htypes hodd, he⟩
    · exact .inr ⟨_, .primaryType ⟨types, htypes, hschema, hprimary⟩ hgiven hother, he⟩
  rcases Except.bind_eq_error_iff.mp h with h | ⟨message, hmessage, h⟩
  · exact .inl (require_eq_error h)
  cases domain? with
  | some domain =>
    obtain rfl := entries?_eq_some hdomain.symm
    exact content_eq_error htypes hv (require_eq_ok hmessage) h
  | none =>
    exact .inr ⟨_, .domain hv (ne_map_of_entries? hdomain.symm), (Except.error.inj h).symm⟩

theorem not_leaks_of_preimage {bs : Bytes} (h : preimage payload = .ok bs) : ¬Leaks payload f := by
  rw [preimage_eq_steps] at h
  obtain ⟨⟨types, domain?⟩, hparts, h⟩ := Except.bind_eq_ok_iff.mp h
  obtain ⟨htypes, ⟨v, hv, hdomain⟩, -⟩ := of_givenParts hparts
  obtain ⟨_, hnames, h⟩ := Except.bind_eq_ok_iff.mp h
  obtain ⟨_, hgiven, h⟩ := Except.bind_eq_ok_iff.mp h
  obtain ⟨message, hmessage, h⟩ := Except.bind_eq_ok_iff.mp h
  cases domain? with
  | none => cases h
  | some domain =>
  obtain rfl := entries?_eq_some hdomain.symm
  obtain ⟨domainHash, hdomainHash, h⟩ := Except.bind_eq_ok_iff.mp h
  obtain ⟨schema, hschema, h⟩ := Except.bind_eq_ok_iff.mp h
  obtain ⟨primary, hprimary, h⟩ := Except.bind_eq_ok_iff.mp h
  obtain ⟨hash, hhash, -⟩ := Except.bind_eq_ok_iff.mp h
  have hread : ∀ schema' primary', HasSchema payload schema' primary' →
      schema' = schema ∧ primary' = primary := by
    rintro schema' primary' ⟨types', htypes', hschema', hprimary'⟩
    cases htypes.symm.trans htypes'
    cases hschema.symm.trans hschema'
    cases hprimary.symm.trans hprimary'
    exact ⟨rfl, rfl⟩
  intro hleaks
  cases hleaks with
  | types h hmap => exact hmap types (Option.some.inj (h.symm.trans htypes))
  | domain h hmap => exact hmap domain (Option.some.inj (h.symm.trans hv))
  | memberType htypes' hodd =>
    cases htypes.symm.trans htypes'
    exact not_hasOddType hschema hodd
  | domainType htypes' hdomain' hlisted hlistedNames hmatch =>
    cases htypes.symm.trans htypes'
    cases hv.symm.trans hdomain'
    cases hmatch.symm.trans (namesMatch_of_checkDomainType hnames hlisted hlistedNames)
  | primaryType hread' hprimaryType hother =>
    obtain ⟨rfl, rfl⟩ := hread _ _ hread'
    exact hother (given_eq_of_checkPrimaryType hgiven hschema hprimary hprimaryType)
  | domainValue hdomain' hbreaks =>
    cases hv.symm.trans hdomain'
    exact not_messageBreaks_of_domainHash hdomainHash hbreaks
  | message hread' hmessage' hbreaks =>
    obtain ⟨rfl, rfl⟩ := hread _ _ hread'
    cases hmessage'.symm.trans (require_eq_ok hmessage)
    exact not_messageBreaks hhash hbreaks

theorem outcome_signTypedData_error {signer : Signer} {session : Session}
    (h : digest payload = .error e) :
    (signer.signTypedData payload).outcome session = (.error e, session) := by
  rw [Signer.signTypedData, Signer.signStructured, h]
  exact Run.outcome_bind_error rfl

/-- **What becomes of a payload.** Its digest has 32 bytes, or it is refused with an encoding error. If
not, a fault of no kind is told that is in the payload, and a signer passes it on without having asked
for a signature. A payload without such a fault is hashed or refused. -/
theorem digest_outcome (payload : List (String × Value)) (signer : Signer) (session : Session) :
    (∀ d, digest payload = .ok d → d.length = 32 ∧ ∀ f, ¬Leaks payload f) ∧
    (∀ e, digest payload = .error e →
      (e = refused ∧ e.isA .encoding = true ∨
        ∃ f, e = .fault f ∧ e.isA .encoding = false ∧ Leaks payload f ∧
          (f = .noEntries ∨ f = .typeMismatch ∨ f = .abiType ∨ f = .abiRange)) ∧
      (signer.signTypedData payload).outcome session = (.error e, session)) ∧
    ((∀ f, ¬Leaks payload f) →
      (∃ d, digest payload = .ok d ∧ d.length = 32) ∨ digest payload = .error refused) := by
  have hok : ∀ d, digest payload = .ok d → d.length = 32 ∧ ∀ f, ¬Leaks payload f := by
    intro d h
    obtain ⟨bs, hbs, h⟩ := Except.bind_eq_ok_iff.mp h
    cases h
    exact ⟨length_keccak bs, fun f => not_leaks_of_preimage hbs⟩
  have herror : ∀ e, digest payload = .error e → IsTold (Leaks payload) e := by
    exact fun e h => isTold_of_preimage (Except.eq_error_of_bind_pure h)
  refine ⟨hok, fun e h => ⟨?_, outcome_signTypedData_error h⟩, fun hno => ?_⟩
  · rcases herror e h with rfl | ⟨f, hf, rfl⟩
    · exact .inl ⟨rfl, Error.isA_encoding .typedData⟩
    · exact .inr ⟨f, rfl, rfl, hf, hf.fault_eq⟩
  · cases h : digest payload with
    | ok d => exact .inl ⟨d, rfl, (hok d h).1⟩
    | error e =>
      rcases herror e h with rfl | ⟨f, hf, -⟩
      · exact .inr rfl
      · exact absurd hf (hno f)

/-- The fault of a value that its type does not take, by whether it is a number out of range. -/
def misfit : Bool → Fault
  | true => .abiRange
  | false => .abiType

/-- Whether a digest is not made for a number out of range or another value that its type does not
take, if it is for one of these. -/
def misfit? : Except Error Bytes → Option Bool
  | .error (.fault .abiRange) => some true
  | .error (.fault .abiType) => some false
  | _ => none

theorem eq_misfit_of_misfit? {digest : Except Error Bytes} {ranged : Bool}
    (h : misfit? digest = some ranged) : digest = .error (.fault (misfit ranged)) := by
  unfold misfit? at h
  split at h
  · rw [← Option.some.inj h, misfit]
  · rw [← Option.some.inj h, misfit]
  · cases h

/-- A payload whose messages have one number of a byte. -/
def sample (domain number : Value) : List (String × Value) := [
  ("types", .map [("Mail", .list [.map [("name", .text "n"), ("type", .text "uint8")]])]),
  ("domain", domain),
  ("message", .map [("n", number)])]

theorem digest_outcome_samples :
    ((∀ f, ¬Leaks (sample (.map []) (.int 1)) f) ∧
      ∃ d, digest (sample (.map []) (.int 1)) = .ok d ∧ d.length = 32) ∧
    Leaks (sample .null (.int 1)) .noEntries ∧
    ((Signer.ofKey .one none).signTypedData (sample .null (.int 1))).outcome {} =
      (.error (.fault .noEntries), {}) := by
  have hhashed : (digest (sample (.map []) (.int 1))).isOk = true := by decide +kernel
  obtain ⟨hok, -, hclean⟩ := digest_outcome (sample (.map []) (.int 1)) (Signer.ofKey .one none) {}
  obtain ⟨-, herror, -⟩ := digest_outcome (sample .null (.int 1)) (Signer.ofKey .one none) {}
  obtain ⟨hcause, hsigned⟩ := herror (.fault .noEntries) rfl
  refine ⟨?_, ?_, hsigned⟩
  · cases hdigest : digest (sample (.map []) (.int 1)) with
    | ok d =>
      have hno := (hok d hdigest).2
      rcases hclean hno with h | h
      · exact ⟨hno, hdigest ▸ h⟩
      · cases hdigest.symm.trans h
    | error e =>
      rw [hdigest] at hhashed
      cases hhashed
  · rcases hcause with ⟨he, -⟩ | ⟨f, he, -, hleaks, -⟩
    · cases he
    · cases he
      exact hleaks

/-- Each of the four faults is told for some payload. -/
theorem digest_faults :
    digest (sample .null (.int 1)) = .error (.fault .noEntries) ∧
    digest (("primaryType", .text "Letter") :: sample (.map []) (.int 1)) =
      .error (.fault .typeMismatch) ∧
    digest (sample (.map []) (.bool true)) = .error (.fault .abiType) ∧
    digest (sample (.map []) (.int 256)) = .error (.fault .abiRange) := by
  have hflag : misfit? (digest (sample (.map []) (.bool true))) = some false := by decide +kernel
  have hlarge : misfit? (digest (sample (.map []) (.int 256))) = some true := by decide +kernel
  exact ⟨rfl, rfl, eq_misfit_of_misfit? hflag, eq_misfit_of_misfit? hlarge⟩

end MetaTx.TypedData
