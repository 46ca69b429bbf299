import Mathlib.Data.List.GetD
import Mathlib.Data.List.TakeWhile
import Mathlib.Data.Nat.Bitwise
import MetaTx.Proofs.Bytes.Regrouping
import MetaTx.Proofs.Except

/-!
# Bech32 is read back

The remainder is linear over exclusive or. So the last six symbols enter it as they are, added to
what it is with six zeros in their place, and exactly one choice of them makes it one. With the bits
regrouped without loss and the separator found behind the human-readable part even if that has
separators of its own, a text is read under a human-readable part to the bytes that it is written
from, and it is read to no others.
-/

namespace MetaTx.Bech32

/-! ## The remainder is linear -/

/-- What the bits of the top symbol add to the remainder. -/
def feedback (top : Nat) : List (Nat × Nat) → Nat
  | [] => 0
  | (g, i) :: rest => (if top.testBit i then g else 0) ^^^ feedback top rest

theorem feedback_xor (top top' : Nat) (gs : List (Nat × Nat)) :
    feedback (top ^^^ top') gs = feedback top gs ^^^ feedback top' gs := by
  induction gs with
  | nil => exact (Nat.xor_self 0).symm
  | cons generator gs ih =>
    obtain ⟨g, i⟩ := generator
    have hbit : (if (top ^^^ top').testBit i then g else 0) =
        (if top.testBit i then g else 0) ^^^ (if top'.testBit i then g else 0) := by
      rw [Nat.testBit_xor]
      cases top.testBit i <;> cases top'.testBit i <;> simp
    rw [feedback, feedback, feedback, ih, hbit]
    ac_rfl

theorem feedback_zero (gs : List (Nat × Nat)) : feedback 0 gs = 0 := by
  induction gs with
  | nil => rfl
  | cons generator gs ih => rw [feedback, ih, Nat.zero_testBit, if_neg Bool.false_ne_true, Nat.xor_zero]

theorem feedback_lt {width : Nat} (top : Nat) {gs : List (Nat × Nat)}
    (h : ∀ generator ∈ gs, generator.1 < 2 ^ width) : feedback top gs < 2 ^ width := by
  induction gs with
  | nil => exact Nat.two_pow_pos width
  | cons generator gs ih =>
    obtain ⟨hg, hgs⟩ := List.forall_mem_cons.mp h
    refine Nat.xor_lt_two_pow ?_ (ih hgs)
    split
    · exact hg
    · exact Nat.two_pow_pos width

theorem foldl_filter_eq_feedback (top start : Nat) (gs : List (Nat × Nat)) :
    (gs.filter fun (_, i) => top.testBit i).foldl (fun a (g, _) => a ^^^ g) start =
      start ^^^ feedback top gs := by
  induction gs generalizing start with
  | nil => exact (Nat.xor_zero start).symm
  | cons generator gs ih =>
    obtain ⟨g, i⟩ := generator
    cases hbit : top.testBit i <;> simp [feedback, hbit, ih, Nat.xor_assoc]

theorem polyStep_eq (acc d : Nat) : polyStep acc d =
    ((acc &&& 0x1ffffff) <<< 5) ^^^ d ^^^ feedback (acc >>> 25) generators.zipIdx :=
  foldl_filter_eq_feedback _ _ _

theorem polyStep_xor (a b d : Nat) : polyStep (a ^^^ b) d = polyStep a 0 ^^^ polyStep b d := by
  rw [polyStep_eq, polyStep_eq, polyStep_eq, Nat.and_xor_distrib_right, Nat.shiftLeft_xor_distrib,
    Nat.shiftRight_xor_distrib, feedback_xor, Nat.xor_zero]
  ac_rfl

theorem polyStep_lt {d : Nat} (acc : Nat) (hd : d < 2 ^ 30) : polyStep acc d < 2 ^ 30 := by
  have hmoved : (acc &&& 0x1ffffff) <<< 5 < 2 ^ 30 := by
    have hlow : acc &&& 0x1ffffff < 2 ^ 25 := Nat.and_lt_two_pow acc (by decide)
    rw [Nat.shiftLeft_eq]
    omega
  rw [polyStep_eq]
  exact Nat.xor_lt_two_pow (Nat.xor_lt_two_pow hmoved hd) (feedback_lt _ (by decide))

/-- The symbols behind others enter the remainder added to what zeros in their place give. -/
theorem foldl_polyStep_xor (a b : Nat) (c : List Nat) :
    c.foldl polyStep (a ^^^ b) =
      (List.replicate c.length 0).foldl polyStep a ^^^ c.foldl polyStep b := by
  induction c generalizing a b with
  | nil => rfl
  | cons d c ih =>
    rw [List.foldl_cons, polyStep_xor, ih]
    rfl

/-! ## Six symbols -/

/-- The number of 30 bits that six symbols are. -/
def pack (c : List Nat) : Nat := c.foldl (fun n d => 32 * n + d) 0

/-- The six symbols of a number. -/
def symbols (n : Nat) : List Nat := [25, 20, 15, 10, 5, 0].map fun shift => (n >>> shift) % 32

theorem lt_of_mem_symbols {n d : Nat} (h : d ∈ symbols n) : d < 32 := by
  obtain ⟨shift, -, rfl⟩ := List.mem_map.mp h
  exact Nat.mod_lt _ (by decide)

theorem pack_symbols {n : Nat} (h : n < 2 ^ 30) : pack (symbols n) = n := by
  simp only [pack, symbols, List.map_cons, List.map_nil, List.foldl_cons, List.foldl_nil,
    Nat.shiftRight_eq_div_pow]
  omega

theorem symbols_pack {c : List Nat} (hlength : c.length = 6) (hlow : ∀ d ∈ c, d < 32) :
    symbols (pack c) = c := by
  match c, hlength with
  | [c₀, c₁, c₂, c₃, c₄, c₅], _ =>
    simp only [List.forall_mem_cons] at hlow
    obtain ⟨h₀, h₁, h₂, h₃, h₄, h₅, -⟩ := hlow
    simp only [pack, symbols, List.map_cons, List.map_nil, List.foldl_cons, List.foldl_nil,
      Nat.shiftRight_eq_div_pow, List.cons.injEq, and_true]
    omega

theorem shiftLeft_xor {d : Nat} (n : Nat) (hd : d < 32) : n <<< 5 ^^^ d = 32 * n + d := by
  apply Nat.eq_of_testBit_eq
  intro i
  have hsum := Nat.testBit_two_pow_mul_add n (i := 5) hd i
  rw [Nat.testBit_xor, Nat.testBit_shiftLeft]
  refine Eq.trans ?_ hsum.symm
  by_cases hi : i < 5
  · rw [if_pos hi, decide_eq_false (by omega), Bool.false_and, Bool.false_xor]
  · have hpow : 2 ^ 5 ≤ 2 ^ i := Nat.pow_le_pow_right (by decide) (by omega)
    rw [if_neg hi, decide_eq_true (by omega), Bool.true_and,
      Nat.testBit_lt_two_pow (Nat.lt_of_lt_of_le hd hpow), Bool.xor_false]

/-- As long as nothing gets to the top, a symbol is only appended. -/
theorem polyStep_of_lt {acc d : Nat} (hacc : acc < 2 ^ 25) (hd : d < 32) :
    polyStep acc d = 32 * acc + d := by
  have htop : acc >>> 25 = 0 := by
    rw [Nat.shiftRight_eq_div_pow]
    exact Nat.div_eq_of_lt hacc
  have hlow : acc &&& 0x1ffffff = acc :=
    (Nat.and_two_pow_sub_one_eq_mod acc 25).trans (Nat.mod_eq_of_lt hacc)
  rw [polyStep_eq, htop, feedback_zero, hlow, Nat.xor_zero, shiftLeft_xor acc hd]

theorem foldl_polyStep_eq {k acc : Nat} {c : List Nat} (hcount : c.length + k ≤ 6)
    (hacc : acc < 32 ^ k) (hlow : ∀ d ∈ c, d < 32) :
    c.foldl polyStep acc = c.foldl (fun n d => 32 * n + d) acc := by
  -- The number so far is one of `k` symbols, so the next one finds nothing at the top.
  induction c generalizing k acc with
  | nil => rfl
  | cons d c ih =>
    obtain ⟨hd, hc⟩ := List.forall_mem_cons.mp hlow
    rw [List.length_cons] at hcount
    have hroom : 32 ^ k ≤ 32 ^ 5 := Nat.pow_le_pow_right (by decide) (by omega)
    have hnext : 32 * acc + d < 32 ^ (k + 1) := by
      rw [Nat.pow_succ]
      omega
    rw [List.foldl_cons, List.foldl_cons, polyStep_of_lt (by omega) hd, ih (by omega) hnext hc]

/-! ## The checksum -/

theorem polymod_append {front c : List Nat} (hlength : c.length = 6) (hlow : ∀ d ∈ c, d < 32) :
    polymod (front ++ c) = polymod (front ++ List.replicate 6 0) ^^^ pack c := by
  have hpack : c.foldl polyStep 0 = pack c :=
    foldl_polyStep_eq (k := 0) (by omega) (by decide) hlow
  have hsplit := foldl_polyStep_xor (polymod front) 0 c
  rw [Nat.xor_zero, hlength, hpack] at hsplit
  rw [polymod, polymod, List.foldl_append, List.foldl_append]
  exact hsplit

theorem polymod_zeros_lt (front : List Nat) : polymod (front ++ List.replicate 6 0) < 2 ^ 30 := by
  have hlast : front ++ List.replicate 6 0 = (front ++ List.replicate 5 0) ++ [0] := by simp
  rw [hlast, polymod, List.foldl_append]
  exact polyStep_lt _ (by decide)

/-- Exactly one choice of the last six symbols makes the remainder one. -/
theorem polymod_checksum_iff {hrp : List Char} {ds c : List Nat} (hlength : c.length = 6)
    (hlow : ∀ d ∈ c, d < 32) :
    polymod (expand hrp ++ ds ++ c) = 1 ↔ c = checksum hrp ds := by
  have hlt := polymod_zeros_lt (expand hrp ++ ds)
  have hown : checksum hrp ds =
      symbols (polymod (expand hrp ++ ds ++ List.replicate 6 0) ^^^ 1) := rfl
  rw [polymod_append hlength hlow, hown]
  generalize polymod (expand hrp ++ ds ++ List.replicate 6 0) = rest at hlt
  constructor
  · intro h
    rw [← h, ← Nat.xor_assoc, Nat.xor_self, Nat.zero_xor, symbols_pack hlength hlow]
  · rintro rfl
    rw [pack_symbols (Nat.xor_lt_two_pow hlt (by decide)), ← Nat.xor_assoc, Nat.xor_self,
      Nat.zero_xor]

/-! ## Characters of symbols -/

theorem digit?_char {d : Nat} (h : d < 32) : digit? (char d) = some d := by
  have hall : ∀ e : Fin 32, digit? (char e) = some e.val := by decide
  exact hall ⟨d, h⟩

/-- Neither the separator nor an upper-case letter stands for a symbol. -/
theorem char_plain {d : Nat} (h : d < 32) : char d ≠ '1' ∧ Text.isUpper (char d) = false := by
  have hall : ∀ e : Fin 32, char e ≠ '1' ∧ Text.isUpper (char e) = false := by decide
  exact hall ⟨d, h⟩

theorem char_of_digit? {c : Char} {d : Nat} (h : digit? c = some d) : d < 32 ∧ c = char d := by
  obtain ⟨hlt, heq, -⟩ := List.findIdx?_eq_some_iff_getElem.mp h
  refine ⟨hlt, ?_⟩
  rw [char, List.getD_eq_getElem _ _ hlt]
  exact (eq_of_beq heq).symm

theorem mapM_digit?_eq_some_iff {cs : List Char} {ds : List Nat} :
    cs.mapM digit? = some ds ↔ (∀ d ∈ ds, d < 32) ∧ cs = ds.map char := by
  constructor
  · exact Option.eq_map_of_mapM_eq_some fun _ _ => char_of_digit?
  · rintro ⟨hlow, rfl⟩
    exact Option.mapM_eq_some_of_forall fun d hd => digit?_char (hlow d hd)

/-! ## The separator -/

theorem split?_append {data : List Char} (front : List Char) (h : '1' ∉ data) :
    split? (front ++ '1' :: data) = some (front, data) := by
  have hreverse : (front ++ '1' :: data).reverse = data.reverse ++ '1' :: front.reverse := by simp
  have hdata : ∀ c ∈ data.reverse, (c != '1') = true := by
    intro c hc
    rw [bne_iff_ne]
    rintro rfl
    exact h (List.mem_reverse.mp hc)
  rw [split?, hreverse, List.dropWhile_append_of_pos hdata, List.takeWhile_append_of_pos hdata]
  simp

theorem of_split? {cs front data : List Char} (h : split? cs = some (front, data)) :
    cs = front ++ '1' :: data := by
  have hwhole := List.takeWhile_append_dropWhile (p := (· != '1')) (l := cs.reverse)
  unfold split? at h
  split at h
  · cases h
  · next c rest hrest =>
    have hc := List.head?_dropWhile_not (· != '1') cs.reverse
    obtain ⟨rfl, rfl⟩ := Prod.mk.inj (Option.some.inj h)
    rw [hrest] at hwhole hc
    have hone : c = '1' := by simpa using hc
    have hback := congrArg List.reverse hwhole
    rw [List.reverse_reverse, List.reverse_append, List.reverse_cons, List.append_assoc,
      List.singleton_append, hone] at hback
    exact hback.symm

/-! ## Spelling -/

/-- A text in one case that has symbols enough for a checksum and more behind its last separator, and
printable characters before it. -/
structure IsSpelled (address : String) (front : List Char) (symbols : List Nat) : Prop where
  oneCase : ¬(address.toList.any Char.isLower && address.toList.any Text.isUpper) = true
  lower : Text.lower address.toList = front ++ '1' :: symbols.map char
  nonempty : front ≠ []
  printable : ∀ c ∈ front, isHrpChar c = true
  enough : 7 ≤ symbols.length
  low : ∀ d ∈ symbols, d < 32

variable {hrp address : String} {front : List Char} {symbols : List Nat}

theorem not_mem_map_char (h : ∀ d ∈ symbols, d < 32) : '1' ∉ symbols.map char := by
  intro hone
  obtain ⟨d, hd, hchar⟩ := List.mem_map.mp hone
  exact (char_plain (h d hd)).1 hchar

theorem IsSpelled.unique (h : IsSpelled address front symbols) {front' : List Char}
    {symbols' : List Nat} (h' : IsSpelled address front' symbols') :
    front = front' ∧ symbols = symbols' := by
  have hsplit := split?_append front (not_mem_map_char h.low)
  rw [← h.lower, h'.lower, split?_append front' (not_mem_map_char h'.low)] at hsplit
  obtain ⟨rfl, hchars⟩ := Prod.mk.inj (Option.some.inj hsplit)
  have hread := mapM_digit?_eq_some_iff.mpr ⟨h.low, hchars⟩
  rw [mapM_digit?_eq_some_iff.mpr ⟨h'.low, rfl⟩] at hread
  exact ⟨rfl, (Option.some.inj hread).symm⟩

/-- Neither the separator nor a symbol brings an upper-case letter into a text. -/
theorem isSpelled_append (hne : hrp ≠ "")
    (hhrp : ∀ c ∈ hrp.toList, isHrpChar c = true ∧ Text.isUpper c = false)
    (henough : 7 ≤ symbols.length) (hlow : ∀ d ∈ symbols, d < 32) :
    IsSpelled (String.ofList (hrp.toList ++ '1' :: symbols.map char)) hrp.toList symbols := by
  have hlower : ∀ c ∈ hrp.toList ++ '1' :: symbols.map char, Text.isUpper c = false := by
    intro c hc
    rw [List.mem_append, List.mem_cons, List.mem_map] at hc
    rcases hc with hc | rfl | ⟨d, hd, rfl⟩
    · exact (hhrp c hc).2
    · decide
    · exact (char_plain (hlow d hd)).2
  refine ⟨?_, ?_, ?_, fun c hc => (hhrp c hc).1, henough, hlow⟩
  · have hnone : (hrp.toList ++ '1' :: symbols.map char).any Text.isUpper = false := by
      rw [List.any_eq_false]
      exact fun c hc => Bool.not_eq_true _ ▸ hlower c hc
    rw [String.toList_ofList, hnone, Bool.and_false]
    exact Bool.false_ne_true
  · rw [String.toList_ofList, Text.lower_of_not_isUpper hlower]
  · rwa [ne_eq, String.toList_eq_nil_iff]

/-! ## Reading -/

theorem isUnusable_iff :
    ¬(front.isEmpty || !front.all isHrpChar) = true ↔ front ≠ [] ∧ ∀ c ∈ front, isHrpChar c = true := by
  rw [Bool.not_eq_true, Bool.or_eq_false_iff, List.isEmpty_eq_false_iff, Bool.not_eq_false',
    List.all_eq_true]

/-- What is looked at in a text that is spelled as an address. -/
theorem decode_of_isSpelled (h : IsSpelled address front symbols) : decode hrp address =
    if polymod (expand front ++ symbols) ≠ 1 then .error .checksum
    else if front ≠ hrp.toList then .error .malformed
    else (ofGroups? (symbols.take (symbols.length - 6))).elim (.error .malformed) .ok := by
  have hlength : ¬(symbols.map char).length < 7 := by
    rw [List.length_map, Nat.not_lt]
    exact h.enough
  have hread : (symbols.map char).mapM digit? = some symbols :=
    mapM_digit?_eq_some_iff.mpr ⟨h.low, rfl⟩
  unfold decode
  simp only [if_neg h.oneCase, h.lower, split?_append front (not_mem_map_char h.low),
    if_neg (isUnusable_iff.mpr ⟨h.nonempty, h.printable⟩), if_neg hlength, hread]
  split
  · rfl
  split
  · rfl
  cases ofGroups? (symbols.take (symbols.length - 6)) <;> rfl

theorem decode_of_not_isSpelled (h : ¬∃ front symbols, IsSpelled address front symbols) :
    decode hrp address = .error .malformed := by
  unfold decode
  simp only [bind, Except.bind, pure, Except.pure, throw, throwThe, MonadExceptOf.throw]
  split
  · rfl
  next hcase =>
  split
  case h_2 => rfl
  next front data hsplit =>
  split
  · rfl
  next hfront =>
  split
  · rfl
  next hdata =>
  split
  case h_2 => rfl
  next symbols hsymbols =>
  -- Nothing is left to be refused before the checksum.
  obtain ⟨hlow, rfl⟩ := mapM_digit?_eq_some_iff.mp hsymbols
  obtain ⟨hnonempty, hprintable⟩ := isUnusable_iff.mp hfront
  rw [List.length_map, Nat.not_lt] at hdata
  exact absurd ⟨front, symbols, hcase, of_split? hsplit, hnonempty, hprintable, hdata, hlow⟩ h

theorem decode_eq_ok_iff {bs : Bytes} : decode hrp address = .ok bs ↔
    ∃ symbols, IsSpelled address hrp.toList symbols ∧ polymod (expand hrp.toList ++ symbols) = 1 ∧
      ofGroups? (symbols.take (symbols.length - 6)) = some bs := by
  constructor
  · intro h
    by_cases hspelled : ∃ front symbols, IsSpelled address front symbols
    · obtain ⟨front, symbols, hspelled⟩ := hspelled
      rw [decode_of_isSpelled hspelled] at h
      split at h
      · cases h
      next hchecked =>
      split at h
      · cases h
      next hhrp =>
      obtain rfl := Decidable.not_not.mp hhrp
      refine ⟨symbols, hspelled, Decidable.not_not.mp hchecked, ?_⟩
      cases hfound : ofGroups? (symbols.take (symbols.length - 6)) with
      | none =>
        rw [hfound] at h
        cases h
      | some found =>
        rw [hfound] at h
        rw [Except.ok.inj h]
    · rw [decode_of_not_isSpelled hspelled] at h
      cases h
  · rintro ⟨symbols, hspelled, hchecked, hfound⟩
    rw [decode_of_isSpelled hspelled, if_neg (not_not_intro hchecked), if_neg (not_not_intro rfl),
      hfound]
    rfl

/-- The symbols that are written behind a human-readable part. -/
def written (hrp : List Char) (bs : Bytes) : List Nat := toGroups bs ++ checksum hrp (toGroups bs)

theorem toList_encode (hrp : String) (bs : Bytes) :
    (encode hrp bs).toList = hrp.toList ++ '1' :: (written hrp.toList bs).map char := by
  have hone : "1".toList = ['1'] := rfl
  simp only [encode, written, String.toList_append, String.toList_ofList, hone, List.append_assoc,
    List.singleton_append]

theorem lt_of_mem_written {hrp : List Char} {bs : Bytes} {d : Nat} (h : d ∈ written hrp bs) :
    d < 32 := by
  rcases List.mem_append.mp h with h | h
  · exact lt_of_mem_toGroups h
  · exact lt_of_mem_symbols h

theorem polymod_written (hrp : List Char) (bs : Bytes) :
    polymod (expand hrp ++ written hrp bs) = 1 := by
  rw [written, ← List.append_assoc]
  exact (polymod_checksum_iff rfl fun d hd => lt_of_mem_symbols hd).mpr rfl

theorem length_written (hrp : List Char) (bs : Bytes) :
    (written hrp bs).length = (toGroups bs).length + 6 :=
  List.length_append

theorem toGroups_ne_nil {bs : Bytes} (h : bs ≠ []) : toGroups bs ≠ [] := by
  intro hnil
  obtain ⟨gap, -, hbits⟩ := holds_toGroups bs
  have hlength := length_of_flatMap hbits
  rw [hnil, List.length_nil] at hlength
  have hpos : 0 < bs.length := List.length_pos_of_ne_nil h
  omega

theorem enough_written (hrp : List Char) {bs : Bytes} (h : bs ≠ []) :
    7 ≤ (written hrp bs).length := by
  have hpos : 0 < (toGroups bs).length := List.length_pos_of_ne_nil (toGroups_ne_nil h)
  rw [length_written]
  omega

/-- **A text is read to the bytes from which it is written, and to no others.** It has to be in one
case, under a human-readable part of printable characters, and hold a byte. -/
theorem decode_eq_ok_iff_encode {hrp address : String} {bs : Bytes} :
    decode hrp address = .ok bs ↔
      (hrp.toList ≠ [] ∧ (∀ c ∈ hrp.toList, isHrpChar c = true) ∧ bs ≠ []) ∧
      ¬(address.toList.any Char.isLower && address.toList.any Text.isUpper) = true ∧
      Text.lower address.toList = (encode hrp bs).toList := by
  rw [decode_eq_ok_iff]
  constructor
  · rintro ⟨symbols, h, hchecked, hbytes⟩
    have henough := h.enough
    have hrest : (symbols.drop (symbols.length - 6)).length = 6 := by
      rw [List.length_drop]
      omega
    have hown := (ofGroups?_eq_some_iff.mp hbytes).toGroups_eq
      fun d hd => h.low d (List.mem_of_mem_take hd)
    rw [← List.take_append_drop (symbols.length - 6) symbols, ← List.append_assoc] at hchecked
    have hchecksum := (polymod_checksum_iff hrest
      fun d hd => h.low d (List.mem_of_mem_drop hd)).mp hchecked
    refine ⟨⟨h.nonempty, h.printable, ?_⟩, h.oneCase, ?_⟩
    · rintro rfl
      have hnone : (symbols.take (symbols.length - 6)).length = 0 := by rw [← hown]; rfl
      rw [List.length_take] at hnone
      omega
    · rw [h.lower, toList_encode, written, hown, ← hchecksum, List.take_append_drop]
  · rintro ⟨⟨hne, hprintable, hbytes⟩, hcase, haddress⟩
    refine ⟨written hrp.toList bs, ⟨hcase, haddress.trans (toList_encode hrp bs), hne, hprintable,
      enough_written hrp.toList hbytes, fun d hd => lt_of_mem_written hd⟩,
      polymod_written hrp.toList bs, ?_⟩
    rw [length_written, Nat.add_sub_cancel, written, List.take_left]
    exact ofGroups?_eq_some_iff.mpr (holds_toGroups bs)

theorem decode_encode {hrp : String} {bs : Bytes} (hne : hrp ≠ "")
    (hhrp : ∀ c ∈ hrp.toList, isHrpChar c = true ∧ Text.isUpper c = false) (hbytes : bs ≠ []) :
    decode hrp (encode hrp bs) = .ok bs := by
  have hspelled := isSpelled_append hne hhrp (enough_written hrp.toList hbytes)
    fun d hd => lt_of_mem_written hd
  rw [← toList_encode, String.ofList_toList] at hspelled
  exact decode_eq_ok_iff_encode.mpr ⟨⟨hspelled.nonempty, hspelled.printable, hbytes⟩,
    hspelled.oneCase, hspelled.lower.trans (toList_encode hrp bs).symm⟩

end MetaTx.Bech32
