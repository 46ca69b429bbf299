import MetaTx.Proofs.Bytes.Hex
import MetaTx.Proofs.Except
import MetaTx.TypedData

/-!
# Typed data of one type

What becomes of a message whose schema defines a single type, all of whose members have basic
types. Such a type mentions no other, so its text is its own. It can still be refused: a name that
ends as that of an array does stands for another type, which is not defined unless it is basic.
Members are turned into fields by their basic types, unless the schema defines a type under the
name of one of these.
-/

namespace MetaTx.TypedData

/-! ## The text of the type -/

/-- The schema of a single type. -/
def single (name : String) (members : List Member) : Schema := [(name, members)]

/-- All members have basic types. -/
def AreBasic (members : List Member) : Prop := ∀ m ∈ members, isBasic (coreName m.type) = true

/-- Whether a name of a type can be followed to what it stands for, if it is the only one that is
defined. -/
def isSelfContained (name : String) : Bool :=
  isOpened name && (isBasic (coreName name) || coreName name == name)

section Single

variable {name : String} {members : List Member}

theorem lookup_single_self : (single name members).lookup name = some members :=
  List.lookup_cons_self

theorem lookup_single_of_ne {type : String} (h : type ≠ name) :
    (single name members).lookup type = none := by
  rw [single, List.lookup_cons, beq_eq_false_iff_ne.mpr h]
  rfl

theorem mentioned_single (h : AreBasic members) (type : String) :
    mentioned (single name members) type = [] := by
  have hnone : ∀ ms : List Member, AreBasic ms →
      (ms.map fun m => coreName m.type).filter (!isBasic ·) = [] := by
    intro ms hms
    rw [List.filter_eq_nil_iff]
    intro core hcore
    obtain ⟨m, hm, rfl⟩ := List.mem_map.mp hcore
    rw [hms m hm]
    decide
  rw [mentioned]
  by_cases htype : type = name
  · rw [htype, lookup_single_self]
    exact hnone members h
  · rw [lookup_single_of_ne htype]
    rfl

theorem closure_single (h : AreBasic members) (n : Nat) (found : List String) :
    closure (single name members) n found = found := by
  cases n with
  | zero => rfl
  | succ n =>
    have hmore : found.flatMap (mentioned (single name members)) = [] :=
      List.flatMap_eq_nil_iff.mpr fun type _ => mentioned_single h type
    simp only [closure, hmore]
    rfl

/-- Nothing but the type itself is needed. -/
theorem needed_single (h : AreBasic members) :
    needed (single name members) name =
      if isSelfContained name then .ok (if isBasic (coreName name) then [] else [name])
      else .error refused := by
  simp only [needed, closure_single h, isSelfContained]
  by_cases hbasic : isBasic (coreName name) = true
  · simp [hbasic]
  · by_cases hcore : coreName name = name
    · rw [hcore] at hbasic
      simp [hcore, hbasic, lookup_single_self]
    · simp [hbasic, hcore, lookup_single_of_ne hcore]

/-- The text of the type is its own, or the name is not defined. -/
theorem encodeType_single (h : AreBasic members) {text : String}
    (htext : typeText (single name members) name = .ok text) :
    encodeType (single name members) name =
      if isSelfContained name then .ok text else .error refused := by
  rw [encodeType, needed_single h]
  by_cases hname : isSelfContained name = true
  · have hothers : (if isBasic (coreName name) then [] else [name]).filter (· != name) = [] := by
      split <;> simp
    have htexts : [name].mapM (typeText (single name members)) = .ok [text] :=
      Except.mapM_eq_ok_iff.mpr (.cons htext .nil)
    have hjoin : String.join [text] = text := String.empty_append
    rw [if_pos hname, if_pos hname, Except.ok_bind, hothers, List.mergeSort_nil]
    dsimp only
    rw [htexts, Except.ok_bind, hjoin]
    rfl
  · rw [if_neg hname, if_neg hname]
    rfl

end Single

/-! ## Fields -/

theorem entry_eq {entries : List (String × Value)} {key type : String} {v : Value}
    (h : Value.get? key entries = some v) :
    entry (.map entries) ⟨some (.text key), type⟩ = .ok ⟨v, Value.sizeOf_lt_of_get? h⟩ := by
  simp only [entry]
  split
  · next w hw =>
    have hwv : w = v := Option.some.inj (hw.symm.trans h)
    subst hwv
    rfl
  · next hnone =>
    rw [h] at hnone
    cases hnone

/-- A value that is neither missing nor has values in it. -/
def IsPlain (v : Value) : Prop := (∃ s, v = .text s) ∨ ∃ n, v = .int n

variable {schema : Schema} {type : String} {v : Value}

/-- A plain value is turned by its basic type, unless the schema defines a type of that name. -/
theorem field_of_plain (hv : IsPlain v) (hlookup : schema.lookup type = none)
    (harray : isArray type = false) : field schema type v = basicField type v := by
  rw [field.eq_def, hlookup]
  rcases hv with ⟨s, rfl⟩ | ⟨n, rfl⟩
  all_goals
    dsimp only
    rw [harray]
    rfl

/-- A plain value is no message of a type that the schema defines. -/
theorem field_of_plain_ne_ok (hv : IsPlain v) {m : Member} {members : List Member}
    (hlookup : schema.lookup type = some (m :: members)) (f : Field) :
    field schema type v ≠ .ok f := by
  intro h
  rw [field.eq_def, hlookup] at h
  rcases hv with ⟨s, rfl⟩ | ⟨n, rfl⟩
  all_goals
    obtain ⟨typeHash, -, h⟩ := Except.bind_eq_ok_iff.mp h
    obtain ⟨fields, h, -⟩ := Except.bind_eq_ok_iff.mp h
    obtain ⟨f, hf⟩ := Except.exists_of_mapM_eq_ok h m List.mem_cons_self
    cases hf

/-! ## Messages -/

/-- A message is hashed by the text of its type and by its fields, if all of them are there. -/
theorem structHash_eq {members : List Member} {entries : List (String × Value)}
    {text : String} {fields : List Field} {bs : Bytes}
    (hlookup : schema.lookup type = some members) (htext : encodeType schema type = .ok text)
    (hfields : List.Forall₂ (fun m f => ∃ key v, m.name? = some (.text key) ∧
      Value.get? key entries = some v ∧ field schema m.type v = .ok f) members fields)
    (hlayout : layout (hashField (keccakText text) :: fields) = .ok bs) :
    structHash schema type (.map entries) = .ok (keccak bs) := by
  have hall : members.mapM (fun m => do
      let ⟨e, _⟩ ← entry (.map entries) m
      field schema m.type e) = .ok fields := by
    rw [Except.mapM_eq_ok_iff]
    refine hfields.imp fun m f hf => ?_
    obtain ⟨key, v, hname, hv, hf⟩ := hf
    obtain ⟨name?, type⟩ := m
    obtain rfl := hname
    rw [entry_eq hv]
    exact hf
  rw [structHash, typeHash, htext, hlookup, Option.getD_some]
  simp only [Except.ok_bind, pure_bind]
  rw [hall]
  simp only [Except.ok_bind, hlayout]
  rfl

/-- A message that is hashed has a type whose text is made, and members that are all turned. -/
theorem exists_of_structHash {members : List Member} {entries : List (String × Value)}
    {hash : Bytes} (hlookup : schema.lookup type = some members)
    (h : structHash schema type (.map entries) = .ok hash) :
    (∃ text, encodeType schema type = .ok text) ∧
      ∀ m ∈ members, ∀ key v, m.name? = some (.text key) → Value.get? key entries = some v →
        ∃ f, field schema m.type v = .ok f := by
  obtain ⟨typeHash, htype, h⟩ := Except.bind_eq_ok_iff.mp h
  obtain ⟨text, htext, -⟩ := Except.bind_eq_ok_iff.mp htype
  obtain ⟨fields, hfields, -⟩ := Except.bind_eq_ok_iff.mp h
  refine ⟨⟨text, htext⟩, fun m hm key v hname hv => ?_⟩
  rw [hlookup] at hfields
  obtain ⟨f, hf⟩ := Except.exists_of_mapM_eq_ok hfields m hm
  obtain ⟨name?, type⟩ := m
  obtain rfl := hname
  rw [entry_eq hv] at hf
  exact ⟨f, hf⟩

/-! ## Single values -/

/-- Digits behind a mark are hashed as the bytes that they were written for. -/
theorem basicField_bytes (bs : Bytes) :
    basicField "bytes" (.text (Hex.render bs)) = .ok (hashField (keccak bs)) := by
  have hdigits : markedDigits? (Hex.render bs) = some (Hex.encode bs) := by
    simp only [markedDigits?, Hex.toList_render]
    rw [if_pos (List.all_eq_true.mpr Hex.isDigit_of_mem_encode)]
  have hbytes : byteString (.text (Hex.render bs)) = .ok bs := by
    simp only [byteString, hdigits, Hex.decodeDigits?_encode, Option.getD_some]
  have hbasic : basicField "bytes" (.text (Hex.render bs)) =
      (do return hashField (keccak (← byteString (.text (Hex.render bs))))) := rfl
  rw [hbasic, hbytes]
  rfl

/-! ## Payloads -/

/-- What is hashed for a payload that defines the type of its domain and names its primary type. -/
theorem preimage_eq {payload types domain : List (String × Value)} {listed message : Value}
    {names : List Value} {primary : String}
    (htypes : require "types" payload = .ok (.map types))
    (hdomain : require "domain" payload = .ok (.map domain))
    (hlisted : Value.get? domainType types = some listed) (hnames : listedNames listed = .ok names)
    (hmatch : namesMatch names domain = true)
    (hschema : readSchema (types.filter fun (name, _) => name != domainType) = .ok schema)
    (hprimary : primaryType schema = .ok primary)
    (hgiven : Value.get? "primaryType" payload = some (.text primary))
    (hmessage : require "message" payload = .ok message) :
    preimage payload = do
      let domainHash ← domainHash domain
      return Message.structured domainHash (← structHash schema primary message) := by
  simp only [preimage, htypes, hdomain, hlisted, hnames, hmatch, hschema, hprimary, hgiven,
    hmessage, Except.ok_bind, collection, entries?, Option.isNone_some, Bool.and_false,
    Bool.false_eq_true, Option.getD_some, Bool.not_true, beq_self_eq_true, ↓reduceIte]

end MetaTx.TypedData
