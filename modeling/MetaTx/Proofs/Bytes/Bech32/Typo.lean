import MetaTx.Proofs.Bytes.Bech32

/-!
# Wrong symbols are caught

A remainder that is not zero stays so while zeros are appended: what falls out at the top comes back at
the bottom, where no two of the 32 symbols give the same. As the remainder is linear, two rows of
symbols that differ in one place have different remainders. So a text that was written has a wrong
checksum as soon as one symbol is another one. The checksum is looked at before it matters whose
address a text is, and tells such texts apart under every human-readable part alike.
-/

namespace MetaTx.Bech32

theorem top_eq_zero_of_feedback {top : Nat} (htop : top < 32)
    (h : feedback top generators.zipIdx % 32 = 0) : top = 0 := by
  have hall : ∀ t : Fin 32, feedback t generators.zipIdx % 32 = 0 → t.val = 0 := by decide
  exact hall ⟨top, htop⟩ h

theorem polyStep_zero_ne_zero {acc : Nat} (hacc : acc < 2 ^ 30) (h : acc ≠ 0) :
    polyStep acc 0 ≠ 0 := by
  intro hzero
  rw [polyStep_eq, Nat.xor_zero, Nat.xor_eq_zero_iff] at hzero
  have hlow : acc &&& 0x1ffffff = acc % 2 ^ 25 := Nat.and_two_pow_sub_one_eq_mod acc 25
  have htop : acc >>> 25 = acc / 2 ^ 25 := Nat.shiftRight_eq_div_pow acc 25
  rw [hlow, htop, Nat.shiftLeft_eq] at hzero
  have hback : feedback (acc / 2 ^ 25) generators.zipIdx % 32 = 0 := by
    rw [← hzero]
    omega
  have hnone := top_eq_zero_of_feedback (by omega) hback
  rw [hnone, feedback_zero] at hzero
  omega

theorem foldl_zeros_ne_zero {acc : Nat} (n : Nat) (hacc : acc < 2 ^ 30) (h : acc ≠ 0) :
    (List.replicate n 0).foldl polyStep acc ≠ 0 := by
  induction n generalizing acc with
  | zero => exact h
  | succ n ih => exact ih (polyStep_lt acc (by decide)) (polyStep_zero_ne_zero hacc h)

/-- One wrong symbol changes the remainder, wherever it stands. -/
theorem polymod_ne_of_ne {d d' : Nat} (hd : d < 32) (hd' : d' < 32) (hne : d ≠ d')
    (front back : List Nat) :
    polymod (front ++ d :: back) ≠ polymod (front ++ d' :: back) := by
  have hsplit : ∀ e, polymod (front ++ e :: back) =
      (List.replicate back.length 0).foldl polyStep e ^^^
        back.foldl polyStep (polyStep (polymod front) 0) := by
    intro e
    have hstep : polyStep (polymod front) e = e ^^^ polyStep (polymod front) 0 := by
      rw [polyStep_eq, polyStep_eq]
      ac_rfl
    rw [← foldl_polyStep_xor, ← hstep, polymod, polymod, List.foldl_append, List.foldl_cons]
  intro heq
  rw [hsplit, hsplit, Nat.xor_left_inj] at heq
  -- Behind the wrong symbol, the difference of the two rows is a row of zeros.
  have hdifference := foldl_polyStep_xor d d' (List.replicate back.length 0)
  rw [List.length_replicate, heq, Nat.xor_self] at hdifference
  have hlt : d ^^^ d' < 2 ^ 30 :=
    Nat.lt_trans (Nat.xor_lt_two_pow (n := 5) hd hd') (by decide)
  refine foldl_zeros_ne_zero back.length hlt ?_ hdifference
  rwa [ne_eq, Nat.xor_eq_zero_iff]

/-! ## Wrong checksums -/

variable {hrp address : String} {front : List Char} {symbols : List Nat}

/-- Whether a text is spelled as an address whose last six symbols are not its checksum. -/
def HasWrongChecksum (address : String) : Prop :=
  ∃ front ds c, IsSpelled address front (ds ++ c) ∧ c.length = 6 ∧ c ≠ checksum front ds

theorem hasWrongChecksum_iff (h : IsSpelled address front symbols) :
    HasWrongChecksum address ↔ polymod (expand front ++ symbols) ≠ 1 := by
  constructor
  · rintro ⟨front', ds, c, h', hlength, hwrong⟩
    obtain ⟨rfl, rfl⟩ := h.unique h'
    rw [← List.append_assoc, ne_eq,
      polymod_checksum_iff hlength fun d hd => h.low d (List.mem_append_right ds hd)]
    exact hwrong
  · intro hwrong
    have hparts := List.take_append_drop (symbols.length - 6) symbols
    have hlength : (symbols.drop (symbols.length - 6)).length = 6 := by
      have henough := h.enough
      rw [List.length_drop]
      omega
    refine ⟨front, _, _, hparts.symm ▸ h, hlength, fun hchecksum => hwrong ?_⟩
    rw [← hparts, ← List.append_assoc]
    exact (polymod_checksum_iff hlength fun d hd => h.low d (List.mem_of_mem_drop hd)).mpr hchecksum

theorem decode_eq_checksum_iff (hrp : String) :
    decode hrp address = .error .checksum ↔ HasWrongChecksum address := by
  by_cases hspelled : ∃ front symbols, IsSpelled address front symbols
  · obtain ⟨front, symbols, h⟩ := hspelled
    rw [decode_of_isSpelled h, hasWrongChecksum_iff h]
    by_cases hchecked : polymod (expand front ++ symbols) = 1
    · rw [if_neg (not_not_intro hchecked)]
      refine iff_of_false ?_ (not_not_intro hchecked)
      by_cases hhrp : front = hrp.toList
      · rw [if_neg (not_not_intro hhrp)]
        cases ofGroups? (symbols.take (symbols.length - 6)) <;> nofun
      · rw [if_pos hhrp]
        nofun
    · rw [if_pos hchecked]
      exact iff_of_true rfl hchecked
  · rw [decode_of_not_isSpelled hspelled]
    refine iff_of_false nofun ?_
    rintro ⟨front, ds, c, h, -⟩
    exact hspelled ⟨front, _, h⟩

/-! ## Wrong symbols -/

theorem exists_char_of_mem {c : Char} (h : c ∈ charset) : ∃ d < 32, c = char d := by
  cases hdigit : digit? c with
  | some d => exact ⟨d, char_of_digit? hdigit⟩
  | none =>
    have hnone := List.findIdx?_eq_none_iff.mp hdigit c h
    rw [beq_self_eq_true] at hnone
    cases hnone

/-- A text that is written but for one symbol behind the separator, which is another one. -/
def IsTypoOf (address hrp : String) (bs : Bytes) : Prop :=
  ∃ before after c c', (encode hrp bs).toList = hrp.toList ++ '1' :: (before ++ c :: after) ∧
    address.toList = hrp.toList ++ '1' :: (before ++ c' :: after) ∧ c' ∈ charset ∧ c' ≠ c

/-- The checksum catches every wrong symbol. -/
theorem hasWrongChecksum_of_isTypoOf {bs : Bytes} (hne : hrp ≠ "")
    (hhrp : ∀ c ∈ hrp.toList, isHrpChar c = true ∧ Text.isUpper c = false) (hbytes : bs ≠ [])
    (h : IsTypoOf address hrp bs) : HasWrongChecksum address := by
  obtain ⟨before, after, c, c', hwritten, haddress, hsymbol, htypo⟩ := h
  rw [toList_encode, List.append_cancel_left_eq, List.cons.injEq] at hwritten
  obtain ⟨first, last, hsymbols, rfl, hlast⟩ := List.map_eq_append_iff.mp hwritten.2
  obtain ⟨d, rest, rfl, rfl, rfl⟩ := List.map_eq_cons_iff.mp hlast
  obtain ⟨d', hd', rfl⟩ := exists_char_of_mem hsymbol
  have hlow : ∀ e ∈ first ++ d :: rest, e < 32 := by
    rw [← hsymbols]
    exact fun e he => lt_of_mem_written he
  have hlow' : ∀ e ∈ first ++ d' :: rest, e < 32 := by
    intro e he
    rcases List.mem_append.mp he with he | he
    · exact hlow e (List.mem_append_left _ he)
    · rcases List.mem_cons.mp he with rfl | he
      · exact hd'
      · exact hlow e (List.mem_append_right first (List.mem_cons_of_mem d he))
  have henough := enough_written hrp.toList hbytes
  rw [hsymbols, List.length_append, List.length_cons] at henough
  have hspelled : IsSpelled address hrp.toList (first ++ d' :: rest) := by
    have hown := isSpelled_append hne hhrp (by rwa [List.length_append, List.length_cons]) hlow'
    rwa [List.map_append, List.map_cons, ← haddress, String.ofList_toList] at hown
  have hright := polymod_written hrp.toList bs
  rw [hsymbols, ← List.append_assoc] at hright
  rw [hasWrongChecksum_iff hspelled, ← List.append_assoc, ← hright]
  refine polymod_ne_of_ne hd' (hlow d (List.mem_append_right first List.mem_cons_self)) ?_ _ _
  rintro rfl
  exact htypo rfl

end MetaTx.Bech32
