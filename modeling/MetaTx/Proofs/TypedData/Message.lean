import MetaTx.Proofs.TypedData.Misfit

/-!
# Messages that break

A value that is to be a message but has no entries is a fault as soon as one of its members is looked
for, and one that does not fit its basic type when the message around it is laid out. Everything else
that is wrong with a message is refused. So each fault is traced here to a value in the message, and a
message with such a value in it has no hash.
-/

namespace MetaTx.TypedData

variable {schema : Schema} {type : String} {v data : Value} {turned : Field} {f : Fault} {e : Error}

mutual

/-- A value of any type that has a value in it at which a fault comes up. -/
inductive Breaks (schema : Schema) : String → Value → Fault → Prop
  | misfit {type : String} {v : Value} {f : Fault} (hlookup : schema.lookup type = none)
      (harray : isArray type = false) (h : Misfit type v f) : Breaks schema type v f
  | item {type : String} {items : List Value} {item : Value} {f : Fault}
      (hlookup : schema.lookup type = none) (harray : isArray type = true) (hitem : item ∈ items)
      (h : Breaks schema (itemName type) item f) : Breaks schema type (.list items) f
  | message {type : String} {v : Value} {members : List Member} {f : Fault}
      (hlookup : schema.lookup type = some members) (hv : v ≠ .null)
      (h : MessageBreaks schema members v f) : Breaks schema type v f

/-- A message with such members that a fault comes up. -/
inductive MessageBreaks (schema : Schema) : List Member → Value → Fault → Prop
  | noEntries {m : Member} {members : List Member} {data : Value} (hm : m ∈ members)
      (hdata : ∀ entries, data ≠ .map entries) : MessageBreaks schema members data .noEntries
  | member {m : Member} {members : List Member} {data : Value}
      {v : { v : Value // sizeOf v < sizeOf data }} {f : Fault} (hm : m ∈ members)
      (hentry : entry data m = .ok v) (h : Breaks schema m.type v f) :
      MessageBreaks schema members data f

end

/-- How a value is turned. -/
inductive Turns (schema : Schema) : String → Value → Except Error Field → Prop
  | missing {type : String} (h : (∃ members, schema.lookup type = some members) ∨
      type = "string" ∨ type = "bytes") : Turns schema type .null (.ok zeroField)
  | message {type : String} {v : Value} {members : List Member}
      (hlookup : schema.lookup type = some members) (hv : v ≠ .null) :
      Turns schema type v (do return hashField (← structHash schema type v))
  | items {type : String} {items : List Value} (hlookup : schema.lookup type = none)
      (harray : isArray type = true) : Turns schema type (.list items) (do
        let fields ← items.mapM (field schema (itemName type))
        return hashField (keccak (← layout fields)))
  | basic {type : String} {v : Value} (hlookup : schema.lookup type = none)
      (harray : isArray type = false) : Turns schema type v (basicField type v)
  | refused {type : String} {v : Value} (hlookup : schema.lookup type = none) :
      Turns schema type v (.error refused)

theorem turns (schema : Schema) (type : String) (v : Value) :
    Turns schema type v (field schema type v) := by
  rw [field.eq_def]
  split
  · next members hlookup =>
    by_cases hnull : v = .null
    · subst hnull
      exact .missing (.inl ⟨members, hlookup⟩)
    · have hmessage := Turns.message hlookup hnull
      rw [structHash, hlookup] at hmessage
      simp only [bind_assoc, pure_bind, Option.getD_some] at hmessage
      cases v with
      | null => exact absurd rfl hnull
      | bool _ | int _ | float _ | text _ | bytes _ | list _ | map _ => exact hmessage
  · next hlookup =>
    cases v with
    | null =>
      dsimp only
      split
      · next hname => exact .missing (.inr (by simpa using hname))
      · exact .refused hlookup
    | list items =>
      dsimp only
      split
      · next harray =>
        have hitems : Turns schema type (.list items) _ := .items hlookup harray
        have hattach : items.attach.mapM (fun item => field schema (itemName type) item.1) =
            items.mapM (field schema (itemName type)) := by
          rw [List.mapM_subtype fun _ _ => rfl, List.unattach_attach]
        rw [← hattach] at hitems
        exact hitems
      · next harray => exact .basic hlookup (Bool.not_eq_true _ ▸ harray)
    | bool _ | int _ | float _ | text _ | bytes _ | map _ =>
      dsimp only
      split
      · exact .refused hlookup
      · next harray => exact .basic hlookup (Bool.not_eq_true _ ▸ harray)

theorem length_of_structHash {hash : Bytes} (h : structHash schema type data = .ok hash) :
    hash.length = 32 := by
  obtain ⟨typeHash, -, h⟩ := Except.bind_eq_ok_iff.mp h
  obtain ⟨fields, -, h⟩ := Except.bind_eq_ok_iff.mp h
  obtain ⟨bs, -, h⟩ := Except.bind_eq_ok_iff.mp h
  cases h
  exact length_keccak bs

theorem entry_eq_error {m : Member} (h : entry data m = .error e) :
    e = refused ∨ (∀ entries, data ≠ .map entries) ∧ e = .fault .noEntries := by
  unfold entry at h
  split at h
  · split at h
    · split at h <;> cases h
    · exact .inl (Except.error.inj h).symm
    · exact .inl (Except.error.inj h).symm
    · exact .inl (Except.error.inj h).symm
    · cases h
  · next hdata => exact .inr ⟨hdata, (Except.error.inj h).symm⟩

theorem exists_of_entry {m : Member} {found : { v : Value // sizeOf v < sizeOf data }}
    (h : entry data m = .ok found) : ∃ entries, data = .map entries := by
  unfold entry at h
  split at h
  · exact ⟨_, rfl⟩
  · cases h

theorem needed_eq_error (h : needed schema type = .error e) : e = refused := by
  unfold needed at h
  dsimp only at h
  generalize closure schema (schema.length + 1) _ = found at h
  split at h
  · cases h
  · exact (Except.error.inj h).symm

theorem typeText_eq_error (h : typeText schema type = .error e) : e = refused := by
  obtain ⟨m, -, h⟩ := Except.exists_mem_of_mapM_eq_error (Except.eq_error_of_bind_pure h)
  split at h
  · cases h
  · exact (Except.error.inj h).symm

theorem typeHash_eq_error (h : typeHash schema type = .error e) : e = refused := by
  rcases Except.bind_eq_error_iff.mp (Except.eq_error_of_bind_pure h) with h | ⟨found, -, h⟩
  · exact needed_eq_error h
  · obtain ⟨name, -, h⟩ := Except.exists_mem_of_mapM_eq_error (Except.eq_error_of_bind_pure h)
    exact typeText_eq_error h

/-! ## Faults are traced -/

/-- A refusal, or one of the faults. -/
def IsTold (faults : Fault → Prop) (e : Error) : Prop := e = refused ∨ ∃ f, faults f ∧ e = .fault f

theorem IsTold.imp {faults faults' : Fault → Prop} (h : IsTold faults e)
    (himp : ∀ f, faults f → faults' f) : IsTold faults' e :=
  h.imp_right fun ⟨f, hf, he⟩ => ⟨f, himp f hf, he⟩

/-- What a value is turned into is laid out unless the value is a misfit itself. -/
theorem breaks_of_part (h : field schema type v = .ok turned)
    (hpart : Abi.part turned.1 turned.2 = .error f) : Breaks schema type v f := by
  have hhash : ∀ hash : Bytes, hash.length = 32 → turned ≠ hashField hash := by
    rintro hash hwidth rfl
    obtain ⟨p, hp⟩ := part_hashField hwidth
    cases hp.symm.trans hpart
  have hturns := turns schema type v
  rw [h] at hturns
  generalize hx : Except.ok turned = x at hturns
  cases hturns with
  | missing =>
    cases hx
    exact (hhash _ rfl rfl).elim
  | message =>
    obtain ⟨hash, hstruct, hx⟩ := Except.bind_eq_ok_iff.mp hx.symm
    cases hx
    exact (hhash hash (length_of_structHash hstruct) rfl).elim
  | items =>
    obtain ⟨fields, -, hx⟩ := Except.bind_eq_ok_iff.mp hx.symm
    obtain ⟨bs, -, hx⟩ := Except.bind_eq_ok_iff.mp hx
    cases hx
    exact (hhash (keccak bs) (length_keccak bs) rfl).elim
  | basic hlookup harray =>
    exact .misfit hlookup harray ((turned_of_basicField hx.symm).misfit hpart)
  | refused => cases hx

theorem isTold_of_structHash
    (hfield : ∀ v, sizeOf v < sizeOf data → ∀ type e, field schema type v = .error e →
      IsTold (Breaks schema type v) e)
    (h : structHash schema type data = .error e) :
    IsTold (MessageBreaks schema ((schema.lookup type).getD []) data) e := by
  rcases Except.bind_eq_error_iff.mp h with h | ⟨hash, hhash, h⟩
  · exact .inl (typeHash_eq_error h)
  rcases Except.bind_eq_error_iff.mp h with h | ⟨fields, hfields, h⟩
  · obtain ⟨m, hm, h⟩ := Except.exists_mem_of_mapM_eq_error h
    rcases Except.bind_eq_error_iff.mp h with h | ⟨found, hfound, h⟩
    · exact (entry_eq_error h).imp_right fun ⟨hdata, he⟩ => ⟨_, .noEntries hm hdata, he⟩
    · exact (hfield found found.2 m.type e h).imp fun f hf => .member hm hfound hf
  obtain ⟨turned, hmem, f, hpart, rfl⟩ :=
    exists_mem_of_layout_eq_error (Except.eq_error_of_bind_pure h)
  rcases List.mem_cons.mp hmem with rfl | hmem
  · obtain ⟨text, -, hhash⟩ := Except.bind_eq_ok_iff.mp hhash
    cases hhash
    obtain ⟨p, hp⟩ := part_hashField (length_keccak (Bytes.ofText text))
    cases hp.symm.trans hpart
  · obtain ⟨m, hm, hturned⟩ := (Except.exists_mem_of_mapM_eq_ok hfields).2 turned hmem
    obtain ⟨found, hfound, hturned⟩ := Except.bind_eq_ok_iff.mp hturned
    exact .inr ⟨f, .member hm hfound (breaks_of_part hturned hpart), rfl⟩

/-- **Every fault is traced to a value in the message.** All else that is wrong with it is refused. -/
theorem isTold_of_field (schema : Schema) (v : Value) : ∀ type e,
    field schema type v = .error e → IsTold (Breaks schema type v) e := by
  induction hsize : sizeOf v using Nat.strongRecOn generalizing v with
  | ind size ih =>
  intro type e h
  have hturns := turns schema type v
  rw [h] at hturns
  generalize hx : Except.error e = x at hturns
  cases hturns with
  | missing => cases hx
  | message hlookup hv =>
    have htold := isTold_of_structHash (fun w hw => ih (sizeOf w) (hsize ▸ hw) w rfl)
      (Except.eq_error_of_bind_pure hx.symm)
    rw [hlookup] at htold
    exact htold.imp fun f hf => .message hlookup hv hf
  | items hlookup harray =>
    rcases Except.bind_eq_error_iff.mp hx.symm with hx | ⟨fields, hfields, hx⟩
    · obtain ⟨item, hitem, hx⟩ := Except.exists_mem_of_mapM_eq_error hx
      have hsmaller : sizeOf item < size := by
        have := List.sizeOf_lt_of_mem hitem
        rw [← hsize, Value.list.sizeOf_spec]
        omega
      exact (ih _ hsmaller item rfl _ e hx).imp fun f hf => .item hlookup harray hitem hf
    · obtain ⟨turned, hmem, f, hpart, rfl⟩ :=
        exists_mem_of_layout_eq_error (Except.eq_error_of_bind_pure hx)
      obtain ⟨item, hitem, hturned⟩ := (Except.exists_mem_of_mapM_eq_ok hfields).2 turned hmem
      exact .inr ⟨f, .item hlookup harray hitem (breaks_of_part hturned hpart), rfl⟩
  | basic => exact .inl (basicField_eq_error hx.symm)
  | refused =>
    cases hx
    exact .inl rfl

/-! ## What has a hash has no faults -/

theorem not_messageBreaks_of_structHash {hash : Bytes}
    (hfield : ∀ v, sizeOf v < sizeOf data → ∀ type turned, field schema type v = .ok turned →
      (∃ p, Abi.part turned.1 turned.2 = .ok p) → ∀ f, ¬Breaks schema type v f)
    (h : structHash schema type data = .ok hash) :
    ¬MessageBreaks schema ((schema.lookup type).getD []) data f := by
  obtain ⟨typeHash, -, h⟩ := Except.bind_eq_ok_iff.mp h
  obtain ⟨fields, hfields, h⟩ := Except.bind_eq_ok_iff.mp h
  obtain ⟨bs, hlayout, -⟩ := Except.bind_eq_ok_iff.mp h
  intro hbreaks
  cases hbreaks with
  | @noEntries m _ _ hm hdata =>
    obtain ⟨turned, -, hturned⟩ := (Except.exists_mem_of_mapM_eq_ok hfields).1 m hm
    obtain ⟨found, hfound, -⟩ := Except.bind_eq_ok_iff.mp hturned
    obtain ⟨entries, hentries⟩ := exists_of_entry hfound
    exact hdata entries hentries
  | @member m _ _ v _ hm hentry hv =>
    obtain ⟨turned, hmem, hturned⟩ := (Except.exists_mem_of_mapM_eq_ok hfields).1 m hm
    obtain ⟨found, hfound, hturned⟩ := Except.bind_eq_ok_iff.mp hturned
    cases hentry.symm.trans hfound
    have hpart := exists_part_of_layout_eq_ok hlayout turned (List.mem_cons_of_mem _ hmem)
    exact hfield v v.2 m.type turned hturned hpart f hv

theorem not_breaks_of_field (schema : Schema) (v : Value) : ∀ type turned,
    field schema type v = .ok turned → (∃ p, Abi.part turned.1 turned.2 = .ok p) →
      ∀ f, ¬Breaks schema type v f := by
  induction hsize : sizeOf v using Nat.strongRecOn generalizing v with
  | ind size ih =>
  intro type turned h hpart f hbreaks
  have hturns := turns schema type v
  rw [h] at hturns
  generalize hx : Except.ok turned = x at hturns
  cases hturns with
  | missing hnamed =>
    cases hbreaks with
    | misfit hlookup _ hmisfit =>
      have hbytes : basic? type = some .bytes := by
        rcases hnamed with ⟨members, hmembers⟩ | rfl | rfl
        · cases hmembers.symm.trans hlookup
        · rfl
        · rfl
      exact hmisfit.basic?_ne_bytes hbytes
    | message _ hv => exact hv rfl
  | message hlookup hv =>
    obtain ⟨hash, hstruct, -⟩ := Except.bind_eq_ok_iff.mp hx.symm
    cases hbreaks with
    | misfit hnone | item hnone => cases hlookup.symm.trans hnone
    | message hlookup' _ hmessage =>
      have hnot := not_messageBreaks_of_structHash
        (fun w hw => ih (sizeOf w) (hsize ▸ hw) w rfl) hstruct (f := f)
      rw [hlookup'] at hnot
      exact hnot hmessage
  | items hlookup harray =>
    obtain ⟨fields, hfields, hx⟩ := Except.bind_eq_ok_iff.mp hx.symm
    obtain ⟨bs, hlayout, -⟩ := Except.bind_eq_ok_iff.mp hx
    cases hbreaks with
    | misfit _ hno => cases harray.symm.trans hno
    | message hmembers => cases hlookup.symm.trans hmembers
    | item _ _ hitem hbreaks =>
      obtain ⟨turned, hmem, hturned⟩ := (Except.exists_mem_of_mapM_eq_ok hfields).1 _ hitem
      have hsmaller := List.sizeOf_lt_of_mem hitem
      rw [Value.list.sizeOf_spec] at hsize
      exact ih _ (by omega) _ rfl _ turned hturned (exists_part_of_layout_eq_ok hlayout turned hmem)
        f hbreaks
  | basic hlookup harray =>
    cases hbreaks with
    | misfit _ _ hmisfit =>
      obtain ⟨p, hp⟩ := hpart
      cases hp.symm.trans ((turned_of_basicField hx.symm).part_of_misfit hmisfit)
    | item _ hno => cases harray.symm.trans hno
    | message hmembers => cases hlookup.symm.trans hmembers
  | refused => cases hx

theorem isTold_structHash (h : structHash schema type data = .error e) :
    IsTold (MessageBreaks schema ((schema.lookup type).getD []) data) e :=
  isTold_of_structHash (fun v _ => isTold_of_field schema v) h

theorem not_messageBreaks {hash : Bytes} (h : structHash schema type data = .ok hash) :
    ¬MessageBreaks schema ((schema.lookup type).getD []) data f :=
  not_messageBreaks_of_structHash (fun v _ => not_breaks_of_field schema v) h

/-! ## Kinds of faults -/

mutual

theorem Breaks.fault_eq {schema : Schema} {type : String} {v : Value} {f : Fault} :
    Breaks schema type v f → f = .noEntries ∨ f = .abiType ∨ f = .abiRange
  | .misfit _ _ h => .inr h.fault_eq
  | .item _ _ _ h => h.fault_eq
  | .message _ _ h => h.fault_eq

theorem MessageBreaks.fault_eq {schema : Schema} {members : List Member} {data : Value} {f : Fault} :
    MessageBreaks schema members data f → f = .noEntries ∨ f = .abiType ∨ f = .abiRange
  | .noEntries _ _ => .inl rfl
  | .member _ _ h => h.fault_eq

end

end MetaTx.TypedData
