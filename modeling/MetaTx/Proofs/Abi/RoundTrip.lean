import MetaTx.Proofs.Abi.Reader
import MetaTx.Proofs.Address

/-!
# What is laid out is read back

The strict reader gives back every value that was laid out, as long as the offsets and lengths
in the layout fit their words. The induction is over the types, with the reader in the middle
of a tuple: some places are behind it, and so are the bodies that belong to them.
-/

namespace MetaTx.Abi

/-! ## Words -/

@[simp] theorem length_numberWord (n : Nat) : (numberWord n).length = wordWidth :=
  Bytes.length_ofNat _ _

theorem word?_append {w : Bytes} (h : w.length = wordWidth) (rest : Bytes) :
    word? (w ++ rest) = some (Bytes.toNat w) := by
  have hle : wordWidth ≤ (w ++ rest).length := by rw [List.length_append, h]; omega
  rw [word?, if_pos hle, List.take_left' h]

theorem word?_numberWord {n : Nat} (h : n < Bytes.limit wordWidth) (rest : Bytes) :
    word? (numberWord n ++ rest) = some n := by
  rw [word?_append (length_numberWord n), numberWord, Bytes.toNat_ofNat h]

theorem pow_two_le_limit {bits : Nat} (h : bits ≤ 256) :
    Nat.pow 2 bits ≤ Bytes.limit wordWidth :=
  Nat.pow_le_pow_right (show 0 < 2 by decide) h

/-- An integer of at most 256 bits is read back from its complement form. -/
theorem ofComplement_emod {n : Int} (hlow : -Nat.pow 2 255 ≤ n) (hhigh : n < Nat.pow 2 255) :
    ofComplement (n % Bytes.limit wordWidth).toNat = n := by
  have hlimit : (Bytes.limit wordWidth : Int) = 2 * Nat.pow 2 255 := by decide
  unfold ofComplement
  rcases Int.lt_or_le n 0 with hneg | hpos
  · have hmod : n % Bytes.limit wordWidth = n + Bytes.limit wordWidth := by
      rw [← Int.add_emod_right, Int.emod_eq_of_lt (by omega) (by omega)]
    rw [hmod, if_neg (by omega)]
    omega
  · rw [Int.emod_eq_of_lt hpos (by omega), if_pos (by omega)]
    omega

theorem isZeros_replicate (k : Nat) : isZeros (List.replicate k 0) = true := by
  simp [isZeros]

/-! ## What one value is laid out as -/

theorem integer_eq_ok {low high : Int} {v : Value} {p : Part} (h : integer low high v = .ok p) :
    ∃ n, v = .int n ∧ low ≤ n ∧ n < high ∧ p = ⟨false, integerWord n⟩ := by
  cases v with
  | int n =>
    simp only [integer] at h
    split at h
    · next hn => cases h; exact ⟨n, rfl, hn.1, hn.2, rfl⟩
    · cases h
  | null | bool _ | float _ | text _ | bytes _ | list _ | map _ => simp [integer] at h

theorem integerWord_natCast {n : Nat} (h : n < Bytes.limit wordWidth) :
    integerWord n = numberWord n := by
  rw [integerWord, Int.emod_eq_of_lt (by omega) (by omega), Int.toNat_natCast]

/-- A number that fits its type is laid out as it is. -/
theorem part_uint {bits : Nat} (hbits : bits ≤ 256) {v : Value} {p : Part}
    (h : part (.uint bits) v = .ok p) :
    ∃ n : Nat, v = .int n ∧ n < Nat.pow 2 bits ∧ p = ⟨false, numberWord n⟩ := by
  obtain ⟨n, rfl, hlow, hhigh, rfl⟩ := integer_eq_ok (by simpa only [part] using h)
  obtain ⟨m, rfl⟩ := Int.eq_ofNat_of_zero_le hlow
  have hm : m < Nat.pow 2 bits := by omega
  refine ⟨m, rfl, hm, ?_⟩
  rw [integerWord_natCast (Nat.lt_of_lt_of_le hm (pow_two_le_limit hbits))]

theorem part_bool {v : Value} {p : Part} (h : part .bool v = .ok p) :
    ∃ b, v = .bool b ∧ p = ⟨false, numberWord b.toNat⟩ := by
  cases v with
  | bool b => simp only [part] at h; cases h; exact ⟨b, rfl, rfl⟩
  | null | int _ | float _ | text _ | bytes _ | list _ | map _ => simp [part] at h

theorem part_address {v : Value} {p : Part} (h : part .address v = .ok p) :
    ∃ bs : Bytes, bs.length = Address.width ∧ shown .address v = .bytes bs ∧
      p = ⟨false, Bytes.padLeft wordWidth bs⟩ := by
  cases v with
  | text s =>
    simp only [part] at h
    split at h
    · next bs hread =>
      cases h
      exact ⟨bs, Address.length_of_ofText? hread, by simp [shown, hread], rfl⟩
    · cases h
  | bytes bs =>
    simp only [part] at h
    split at h
    · next hlen => cases h; exact ⟨bs, hlen, rfl, rfl⟩
    · cases h
  | null | bool _ | int _ | float _ | list _ | map _ => simp [part] at h

theorem part_word {n : Nat} {v : Value} {p : Part} (h : part (.word n) v = .ok p) :
    ∃ bs : Bytes, v = .bytes bs ∧ bs.length ≤ n ∧ p = ⟨false, Bytes.padRight wordWidth bs⟩ := by
  cases v with
  | bytes bs =>
    simp only [part] at h
    split at h
    · next hlen => cases h; exact ⟨bs, rfl, hlen, rfl⟩
    · cases h
  | null | bool _ | int _ | float _ | text _ | list _ | map _ => simp [part] at h

theorem part_bytes {v : Value} {p : Part} (h : part .bytes v = .ok p) :
    ∃ bs : Bytes, v = .bytes bs ∧
      p = ⟨true, numberWord bs.length ++ Bytes.padToMultiple wordWidth bs⟩ := by
  cases v with
  | bytes bs => simp only [part] at h; cases h; exact ⟨bs, rfl, rfl⟩
  | null | bool _ | int _ | float _ | text _ | list _ | map _ => simp [part] at h

theorem part_tuple {types : List AbiType} {v : Value} {p : Part}
    (h : part (.tuple types) v = .ok p) :
    ∃ vs ps, v = .list vs ∧ parts types vs = .ok ps ∧
      p = ⟨ps.any Part.isDynamic, layout ps⟩ := by
  cases v with
  | list vs =>
    simp only [part] at h
    cases hps : parts types vs with
    | error e => rw [hps] at h; cases h
    | ok ps => rw [hps] at h; cases h; exact ⟨vs, ps, rfl, hps, rfl⟩
  | null | bool _ | int _ | float _ | text _ | bytes _ | map _ => simp [part] at h

theorem parts_nil {vs : List Value} {ps : List Part} (h : parts [] vs = .ok ps) :
    vs = [] ∧ ps = [] := by
  cases vs with
  | nil => simp only [parts] at h; cases h; exact ⟨rfl, rfl⟩
  | cons v vs => simp [parts] at h

theorem parts_cons {type : AbiType} {types : List AbiType} {vs : List Value} {ps : List Part}
    (h : parts (type :: types) vs = .ok ps) :
    ∃ v rest p restParts, vs = v :: rest ∧ part type v = .ok p ∧
      parts types rest = .ok restParts ∧ ps = p :: restParts := by
  cases vs with
  | nil => simp [parts] at h
  | cons v rest =>
    simp only [parts] at h
    cases hp : part type v with
    | error e => rw [hp] at h; cases h
    | ok p =>
      cases hps : parts types rest with
      | error e => rw [hp, hps] at h; cases h
      | ok restParts =>
        rw [hp, hps] at h
        cases h
        exact ⟨v, rest, p, restParts, rfl, hp, hps, rfl⟩

/-! ## What a tuple is laid out as -/

theorem behind_nil : behind [] = [] := rfl

theorem behind_cons (p : Part) (ps : List Part) :
    behind (p :: ps) = (if p.isDynamic then p.body else []) ++ behind ps := by
  cases h : p.isDynamic <;> simp [behind, h]

theorem length_places (offset : Nat) (ps : List Part) :
    (places offset ps).length = placesWidth ps := by
  induction ps generalizing offset with
  | nil => rfl
  | cons p ps ih =>
    unfold places placesWidth Part.placeWidth
    split <;> simp [ih]

theorem length_layout (ps : List Part) :
    (layout ps).length = placesWidth ps + (behind ps).length := by
  rw [layout, List.length_append, length_places]

/-- A part is of the kind and width that its type tells. -/
structure Part.Fits (p : Part) (type : AbiType) : Prop where
  isDynamic : p.isDynamic = type.isDynamic
  placeWidth : p.placeWidth = type.placeWidth

theorem fits_word {type : AbiType} (hd : type.isDynamic = false)
    (hw : type.placeWidth = wordWidth) {body : Bytes} (hb : body.length = wordWidth) :
    Part.Fits ⟨false, body⟩ type :=
  ⟨hd.symm, by rw [Part.placeWidth, hw]; exact hb⟩

theorem length_padRight {n : Nat} {bs : Bytes} (h : bs.length ≤ n) :
    (Bytes.padRight n bs).length = n := by
  rw [Bytes.padRight, List.length_append, List.length_replicate]
  omega

theorem length_padLeft {n : Nat} {bs : Bytes} (h : bs.length ≤ n) :
    (Bytes.padLeft n bs).length = n := by
  rw [Bytes.padLeft, List.length_append, List.length_replicate]
  omega

mutual

theorem fits_of_part (type : AbiType) (hsized : type.isSized = true) {v : Value} {p : Part}
    (h : part type v = .ok p) : p.Fits type := by
  cases type with
  | uint bits =>
    obtain ⟨n, -, -, rfl⟩ := part_uint (of_decide_eq_true hsized) h
    exact fits_word rfl rfl (length_numberWord n)
  | int bits =>
    obtain ⟨n, -, -, -, rfl⟩ := integer_eq_ok (by simpa only [part] using h)
    exact fits_word rfl rfl (length_numberWord _)
  | bool =>
    obtain ⟨b, -, rfl⟩ := part_bool h
    exact fits_word rfl rfl (length_numberWord _)
  | address =>
    obtain ⟨bs, hlen, -, rfl⟩ := part_address h
    exact fits_word rfl rfl (length_padLeft (by rw [hlen]; decide))
  | word n =>
    obtain ⟨bs, -, hlen, rfl⟩ := part_word h
    exact fits_word rfl rfl (length_padRight (Nat.le_trans hlen (of_decide_eq_true hsized)))
  | bytes =>
    obtain ⟨bs, -, rfl⟩ := part_bytes h
    exact ⟨rfl, rfl⟩
  | tuple types =>
    obtain ⟨vs, ps, -, hps, rfl⟩ := part_tuple h
    obtain ⟨hany, hwidth⟩ := fits_of_parts types hsized hps
    refine ⟨hany, ?_⟩
    rw [Part.placeWidth, AbiType.placeWidth, ← hany]
    split
    · rfl
    · next hstatic =>
      have hbehind : behind ps = [] := by
        rw [behind, List.filter_eq_nil_iff.mpr (by simpa using hstatic)]
        rfl
      rw [length_layout, hbehind, hwidth]
      rfl

theorem fits_of_parts (types : List AbiType) (hsized : AbiType.areSized types = true)
    {vs : List Value} {ps : List Part} (h : parts types vs = .ok ps) :
    ps.any Part.isDynamic = AbiType.anyDynamic types ∧
      placesWidth ps = AbiType.placesWidth types := by
  cases types with
  | nil =>
    obtain ⟨-, rfl⟩ := parts_nil h
    exact ⟨rfl, rfl⟩
  | cons type types =>
    obtain ⟨v, rest, p, restParts, -, hp, hps, rfl⟩ := parts_cons h
    simp only [AbiType.areSized, Bool.and_eq_true] at hsized
    have hfirst := fits_of_part type hsized.1 hp
    obtain ⟨hany, hwidth⟩ := fits_of_parts types hsized.2 hps
    constructor
    · rw [List.any_cons, AbiType.anyDynamic, hany, hfirst.isDynamic]
    · rw [placesWidth, AbiType.placesWidth, hwidth, hfirst.placeWidth]

end

/-! ## Reading back -/

theorem padToMultiple_eq (bs : Bytes) : Bytes.padToMultiple wordWidth bs =
    bs ++ List.replicate (paddedWidth bs.length - bs.length) 0 := by
  rw [Bytes.padToMultiple, paddedWidth, Nat.add_sub_cancel_left]

theorem length_padToMultiple (bs : Bytes) :
    (Bytes.padToMultiple wordWidth bs).length = paddedWidth bs.length := by
  rw [Bytes.padToMultiple, List.length_append, List.length_replicate, paddedWidth]

theorem read?_bytes {bs : Bytes} (h : bs.length < Bytes.limit wordWidth) (rest : Bytes) :
    read? .bytes (numberWord bs.length ++ Bytes.padToMultiple wordWidth bs ++ rest) =
      some (.bytes bs, wordWidth + paddedWidth bs.length) := by
  have hcontent : ((numberWord bs.length ++ (Bytes.padToMultiple wordWidth bs ++ rest)).drop
      wordWidth).take (paddedWidth bs.length) = Bytes.padToMultiple wordWidth bs := by
    rw [List.drop_left' (length_numberWord _), List.take_left' (length_padToMultiple bs)]
  have hzeros : isZeros ((Bytes.padToMultiple wordWidth bs).drop bs.length) = true := by
    rw [padToMultiple_eq, List.drop_left' rfl]
    exact isZeros_replicate _
  have htake : (Bytes.padToMultiple wordWidth bs).take bs.length = bs := by
    rw [padToMultiple_eq, List.take_left' rfl]
  rw [List.append_assoc, read?, word?_numberWord h]
  simp only [Option.bind_eq_bind, Option.bind_some, hcontent, length_padToMultiple, hzeros,
    and_self, ↓reduceIte, htake]

theorem read?_word {n : Nat} (hn : n ≤ wordWidth) {bs : Bytes} (h : bs.length ≤ n)
    (rest : Bytes) : read? (.word n) (Bytes.padRight wordWidth bs ++ rest) =
      some (.bytes (Bytes.padRight n bs), wordWidth) := by
  have hlen : (Bytes.padRight wordWidth bs).length = wordWidth :=
    length_padRight (Nat.le_trans h hn)
  have hsplit : Bytes.padRight wordWidth bs =
      Bytes.padRight n bs ++ List.replicate (wordWidth - n) 0 := by
    rw [Bytes.padRight, Bytes.padRight, List.append_assoc, List.replicate_append_replicate]
    congr 2
    omega
  have hzeros : isZeros (((Bytes.padRight wordWidth bs ++ rest).take wordWidth).drop n) := by
    rw [List.take_left' hlen, hsplit, List.drop_left' (length_padRight h)]
    exact isZeros_replicate _
  have htake : (Bytes.padRight wordWidth bs ++ rest).take n = Bytes.padRight n bs := by
    rw [hsplit, List.append_assoc, List.take_left' (length_padRight h)]
  have hle : wordWidth ≤ (Bytes.padRight wordWidth bs ++ rest).length := by
    rw [List.length_append, hlen]
    omega
  rw [read?, if_pos ⟨hle, hzeros⟩, htake]

theorem read?_address {bs : Bytes} (h : bs.length = Address.width) (rest : Bytes) :
    read? .address (Bytes.padLeft wordWidth bs ++ rest) = some (.bytes bs, wordWidth) := by
  have hlen : (Bytes.padLeft wordWidth bs).length = wordWidth :=
    length_padLeft (by rw [h]; decide)
  have hlt : Bytes.toNat bs < Bytes.limit Address.width := h ▸ Bytes.toNat_lt bs
  rw [read?, word?_append hlen, Bytes.toNat_padLeft]
  simp only [Option.bind_eq_bind, Option.bind_some, hlt, ↓reduceIte]
  rw [← h, Bytes.ofNat_toNat]

theorem read?_uint {bits n : Nat} (hbits : bits ≤ 256) (h : n < Nat.pow 2 bits) (rest : Bytes) :
    read? (.uint bits) (numberWord n ++ rest) = some (.int n, wordWidth) := by
  rw [read?, word?_numberWord (Nat.lt_of_lt_of_le h (pow_two_le_limit hbits))]
  simp only [Option.bind_eq_bind, Option.bind_some, h, ↓reduceIte]

theorem read?_bool (b : Bool) (rest : Bytes) :
    read? .bool (numberWord b.toNat ++ rest) = some (.bool b, wordWidth) := by
  have hlt : b.toNat < Bytes.limit wordWidth := Nat.lt_of_le_of_lt b.toNat_le (by decide)
  rw [read?, word?_numberWord hlt]
  cases b <;> rfl

theorem read?_int {bits : Nat} (hpos : 0 < bits) (hbits : bits ≤ 256) {n : Int}
    (hlow : -Nat.pow 2 (bits - 1) ≤ n) (hhigh : n < Nat.pow 2 (bits - 1)) (rest : Bytes) :
    read? (.int bits) (integerWord n ++ rest) = some (.int n, wordWidth) := by
  have hpow : Nat.pow 2 (bits - 1) ≤ Nat.pow 2 255 :=
    Nat.pow_le_pow_right (show 0 < 2 by decide) (by omega)
  have hlimit : 0 < (Bytes.limit wordWidth : Int) := by decide
  have hmod := Int.emod_lt_of_pos n hlimit
  have hmod' := Int.emod_nonneg n (Int.ne_of_gt hlimit)
  have hback := ofComplement_emod (n := n) (by omega) (by omega)
  rw [read?, integerWord, word?_numberWord (by omega)]
  simp only [Option.bind_eq_bind, Option.bind_some, hback, hlow, hhigh, and_self, ↓reduceIte]

mutual

theorem read?_of_part (type : AbiType) (hsized : type.isSized = true) {v : Value} {p : Part}
    (h : part type v = .ok p) (hfit : p.body.length < Bytes.limit wordWidth) (rest : Bytes) :
    read? type (p.body ++ rest) = some (shown type v, p.body.length) := by
  cases type with
  | uint bits =>
    have hbits : bits ≤ 256 := of_decide_eq_true hsized
    obtain ⟨n, rfl, hn, rfl⟩ := part_uint hbits h
    rw [read?_uint hbits hn, length_numberWord]
    rfl
  | int bits =>
    simp only [AbiType.isSized, Bool.and_eq_true, decide_eq_true_eq] at hsized
    obtain ⟨n, rfl, hlow, hhigh, rfl⟩ := integer_eq_ok (by simpa only [part] using h)
    rw [read?_int hsized.1 hsized.2 hlow hhigh, integerWord, length_numberWord]
    rfl
  | bool =>
    obtain ⟨b, rfl, rfl⟩ := part_bool h
    rw [read?_bool, length_numberWord]
    rfl
  | address =>
    obtain ⟨bs, hlen, hshown, rfl⟩ := part_address h
    rw [read?_address hlen, hshown, length_padLeft (by rw [hlen]; decide)]
  | word n =>
    have hn : n ≤ wordWidth := of_decide_eq_true hsized
    obtain ⟨bs, rfl, hlen, rfl⟩ := part_word h
    rw [read?_word hn hlen, length_padRight (Nat.le_trans hlen hn)]
    rfl
  | bytes =>
    obtain ⟨bs, rfl, rfl⟩ := part_bytes h
    rw [List.length_append, length_padToMultiple, length_numberWord] at hfit ⊢
    have hle : bs.length ≤ paddedWidth bs.length := Nat.le_add_right _ _
    rw [read?_bytes (by omega)]
    rfl
  | tuple types =>
    obtain ⟨vs, ps, rfl, hps, rfl⟩ := part_tuple h
    have hwidth := (fits_of_parts types hsized hps).2
    rw [length_layout, hwidth] at hfit ⊢
    have hall := readAll?_of_parts types hsized hps [] [] rest
      (AbiType.placesWidth types) (by simp [hwidth]) hfit
    simp only [List.nil_append, List.length_nil] at hall
    rw [read?, layout, hwidth, List.append_assoc, hall]
    rfl

/-- Reading goes on in the middle of a tuple: places stand in `before`, and the bodies that
belong to them in `mid`. -/
theorem readAll?_of_parts (types : List AbiType) (hsized : AbiType.areSized types = true)
    {vs : List Value} {ps : List Part} (h : parts types vs = .ok ps) (before mid rest : Bytes)
    (free : Nat) (hfree : free = before.length + placesWidth ps + mid.length)
    (hfit : free + (behind ps).length < Bytes.limit wordWidth) :
    readAll? types (before ++ (places free ps ++ (mid ++ (behind ps ++ rest)))) before.length
      free = some (shownAll types vs, free + (behind ps).length) := by
  cases types with
  | nil =>
    obtain ⟨rfl, rfl⟩ := parts_nil h
    rfl
  | cons type types =>
    obtain ⟨v, vs, p, ps, rfl, hp, hps, rfl⟩ := parts_cons h
    simp only [AbiType.areSized, Bool.and_eq_true] at hsized
    have hkind := (fits_of_part type hsized.1 hp).isDynamic
    cases hdyn : p.isDynamic with
    | true =>
      simp only [placesWidth, Part.placeWidth, hdyn, ↓reduceIte] at hfree
      simp only [behind_cons, hdyn, ↓reduceIte, List.length_append] at hfit ⊢
      rw [readAll?, ← hkind, hdyn, if_pos rfl, places, hdyn, if_pos rfl]
      -- the place holds the offset, and at the offset stands the body
      have hplace : word? ((before ++ (numberWord free ++ places (free + p.body.length) ps ++
          (mid ++ (p.body ++ behind ps ++ rest)))).drop before.length) = some free := by
        rw [List.drop_left' rfl, List.append_assoc, word?_numberWord (by omega)]
      have hbody : (before ++ (numberWord free ++ places (free + p.body.length) ps ++
          (mid ++ (p.body ++ behind ps ++ rest)))).drop free =
            p.body ++ (behind ps ++ rest) := by
        have hlen : (before ++ (numberWord free ++ places (free + p.body.length) ps) ++
            mid).length = free := by
          simp only [List.length_append, length_numberWord, length_places]
          omega
        rw [← List.append_assoc, ← List.append_assoc, List.drop_left' hlen, List.append_assoc]
      have hfirst := read?_of_part type hsized.1 hp (by omega) (behind ps ++ rest)
      have hrest := readAll?_of_parts types hsized.2 hps (before ++ numberWord free)
        (mid ++ p.body) rest (free + p.body.length)
        (by simp only [List.length_append, length_numberWord]; omega) (by omega)
      simp only [List.append_assoc, List.length_append, length_numberWord] at hplace hbody hrest ⊢
      simp only [hplace, hbody, hfirst, hrest, Option.bind_eq_bind, Option.bind_some, ne_eq,
        not_true_eq_false, ↓reduceIte, shownAll, Nat.add_assoc]
    | false =>
      simp only [placesWidth, Part.placeWidth, hdyn, Bool.false_eq_true, ↓reduceIte] at hfree
      simp only [behind_cons, hdyn, Bool.false_eq_true, ↓reduceIte, List.nil_append] at hfit ⊢
      rw [readAll?, ← hkind, hdyn, if_neg Bool.false_ne_true, places, hdyn,
        if_neg Bool.false_ne_true]
      have hbody : (before ++ (p.body ++ places free ps ++ (mid ++ (behind ps ++ rest)))).drop
          before.length = p.body ++ (places free ps ++ (mid ++ (behind ps ++ rest))) := by
        rw [List.drop_left' rfl, List.append_assoc]
      have hfirst := read?_of_part type hsized.1 hp (by omega)
        (places free ps ++ (mid ++ (behind ps ++ rest)))
      have hrest := readAll?_of_parts types hsized.2 hps (before ++ p.body) mid rest
        free (by rw [List.length_append]; omega) hfit
      simp only [List.append_assoc, List.length_append] at hbody hrest ⊢
      simp only [hbody, hfirst, hrest, Option.bind_eq_bind, Option.bind_some, shownAll]

end

/-- Values that are laid out are read back, and nothing is left over. -/
theorem decode?_encode {types : List AbiType} (hsized : AbiType.areSized types = true)
    {values : List Value} {bs : Bytes} (h : encode types values = .ok bs)
    (hfit : bs.length < Bytes.limit wordWidth) :
    decode? types bs = some (shownAll types values) := by
  unfold encode at h
  cases hps : parts types values with
  | error e => rw [hps] at h; cases h
  | ok ps =>
    rw [hps] at h
    cases h
    have hwidth := (fits_of_parts types hsized hps).2
    rw [length_layout, hwidth] at hfit
    have hall := readAll?_of_parts types hsized hps [] [] []
      (AbiType.placesWidth types) (by simp [hwidth]) hfit
    simp only [List.nil_append, List.length_nil, List.append_nil] at hall
    rw [decode?, layout, hwidth, hall, List.length_append, length_places, hwidth]
    simp

end MetaTx.Abi
