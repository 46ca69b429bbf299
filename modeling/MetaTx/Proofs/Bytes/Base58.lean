import Mathlib.Data.List.GetD
import Mathlib.Data.List.TakeWhile
import MetaTx.Bytes.Base58
import MetaTx.Proofs.Bytes.Number
import MetaTx.Proofs.Except

/-!
# Base 58 is read back

A byte string in base 58 is its zero bytes in front, one character each, and then the digits of its
number, of which the first is not zero. So what stands for zero bytes ends where the digits start,
and both parts are read back. No character of the alphabet is blank, and none of them breaks a line
or joins a mark to what follows it.

Reading loses nothing but blanks at the end: a text that is read is the one that would be written.
-/

namespace MetaTx

/-! ## Digits of numbers -/

namespace Digits

theorem lt_of_mem_ofNat {base n : Nat} (hb : 2 ≤ base) : ∀ d ∈ ofNat base n, d < base := by
  fun_induction ofNat base n with
  | case1 n h => simp
  | case2 n h _ ih =>
    exact List.forall_mem_cons.mpr ⟨Nat.mod_lt n (by omega), ih⟩

/-- The most significant digit is not zero. -/
theorem getLast?_ofNat_ne_zero (base n : Nat) : (ofNat base n).getLast? ≠ some 0 := by
  fun_induction ofNat base n with
  | case1 n h => simp
  | case2 n h _ ih =>
    cases hrest : ofNat base (n / base) with
    | nil =>
      -- No digits are left, so the last one is the number itself.
      have hb : 2 ≤ base := by omega
      have hzero : n / base = 0 := by
        rw [← toNat_ofNat hb (n / base), hrest]
        rfl
      have hlt : n < base := (Nat.div_eq_zero_iff_lt (by omega)).mp hzero
      rw [Nat.mod_eq_of_lt hlt, List.getLast?_singleton]
      intro hn
      have hn : n = 0 := Option.some.inj hn
      omega
    | cons d ds =>
      rw [hrest] at ih
      rw [List.getLast?_cons_cons]
      exact ih

/-- Digits of which the most significant is not zero stand for more than zero. -/
theorem toNat_pos {base : Nat} (hb : 2 ≤ base) {ds : List Nat} (hne : ds ≠ [])
    (hlast : ds.getLast? ≠ some 0) : 0 < toNat base ds := by
  induction ds with
  | nil => exact absurd rfl hne
  | cons d ds ih =>
    rw [toNat]
    cases ds with
    | nil =>
      have hd : d ≠ 0 := fun h => hlast (by rw [h, List.getLast?_singleton])
      omega
    | cons e ds =>
      rw [List.getLast?_cons_cons] at hlast
      have hrest := ih (List.cons_ne_nil e ds) hlast
      have hmul := Nat.mul_pos (show 0 < base by omega) hrest
      omega

/-- Digits in range are those of their number if the most significant is not zero. -/
theorem ofNat_toNat {base : Nat} (hb : 2 ≤ base) {ds : List Nat} (hlt : ∀ d ∈ ds, d < base)
    (hlast : ds.getLast? ≠ some 0) : ofNat base (toNat base ds) = ds := by
  induction ds with
  | nil =>
    rw [toNat, ofNat]
    simp
  | cons d ds ih =>
    obtain ⟨hd, hds⟩ := List.forall_mem_cons.mp hlt
    have hpos := toNat_pos hb (List.cons_ne_nil d ds) hlast
    have hrest : ds.getLast? ≠ some 0 := by
      cases ds with
      | nil => simp
      | cons e ds =>
        rw [List.getLast?_cons_cons] at hlast
        exact hlast
    have hmod : (d + base * toNat base ds) % base = d := by
      rw [Nat.add_mul_mod_self_left, Nat.mod_eq_of_lt hd]
    have hdiv : (d + base * toNat base ds) / base = toNat base ds := by
      rw [Nat.add_mul_div_left _ _ (by omega), Nat.div_eq_of_lt hd, Nat.zero_add]
    rw [toNat] at hpos
    rw [toNat, ofNat, dif_neg (by omega)]
    show (d + base * toNat base ds) % base :: ofNat base ((d + base * toNat base ds) / base) = _
    rw [hmod, hdiv, ih hds hrest]

theorem toNat_replicate_zero (base k : Nat) : toNat base (List.replicate k 0) = 0 := by
  induction k with
  | zero => rfl
  | succ k ih => rw [List.replicate_succ, toNat, ih, Nat.mul_zero]

/-- Zeros at the most significant end do not count. -/
theorem toNat_append_zeros (base : Nat) (ds : List Nat) (k : Nat) :
    toNat base (ds ++ List.replicate k 0) = toNat base ds := by
  induction ds with
  | nil => exact toNat_replicate_zero base k
  | cons d ds ih => rw [List.cons_append, toNat, ih, toNat]

end Digits

/-! ## Zero bytes in front -/

namespace Bytes

theorem takeWhile_zero_eq (bs : Bytes) :
    bs.takeWhile (· == 0) = List.replicate (bs.takeWhile (· == 0)).length 0 := by
  apply List.eq_replicate_of_mem
  intro b hb
  exact eq_of_beq (List.mem_takeWhile_imp (p := (· == 0)) hb)

theorem toNat_dropWhile_zero (bs : Bytes) : toNat (bs.dropWhile (· == 0)) = toNat bs := by
  have hsplit := List.takeWhile_append_dropWhile (p := (· == 0)) (l := bs)
  rw [takeWhile_zero_eq] at hsplit
  have happend := congrArg toNat hsplit
  rw [toNat_append, toNat_replicate_zero, Nat.zero_mul, Nat.zero_add] at happend
  exact happend

/-- A byte string without zero bytes in front has no more bytes than its number needs. -/
theorem minimal_toNat_of_head? {bs : Bytes} (h : bs.head? ≠ some 0) : minimal (toNat bs) = bs := by
  have hlt := toNat_lt bs
  have hwidth : widthOf (toNat bs) = bs.length := by
    refine Nat.le_antisymm (widthOf_le hlt) ?_
    cases bs with
    | nil => exact Nat.zero_le _
    | cons b rest =>
      have hb : b ≠ 0 := fun hb => h (congrArg some hb)
      have hbpos : 0 < b.toNat := Nat.pos_of_ne_zero fun h => hb (UInt8.toNat_inj.mp h)
      have hnumber : toNat (b :: rest) = b.toNat * limit rest.length + toNat rest := by
        rw [← List.singleton_append, toNat_append]
        simp [toNat]
      have hle : limit rest.length ≤ toNat (b :: rest) := by
        rw [hnumber]
        exact Nat.le_add_right_of_le (Nat.le_mul_of_pos_left _ hbpos)
      have hpow : limit rest.length < limit (widthOf (toNat (b :: rest))) :=
        Nat.lt_of_le_of_lt hle (lt_limit_widthOf _)
      exact (Nat.pow_lt_pow_iff_right (by decide)).mp hpow
  rw [minimal, hwidth, ofNat_toNat]

theorem minimal_toNat (bs : Bytes) : minimal (toNat bs) = bs.dropWhile (· == 0) := by
  rw [← toNat_dropWhile_zero bs]
  apply minimal_toNat_of_head?
  intro hhead
  have hkept := List.head?_dropWhile_not (· == 0) bs
  rw [hhead] at hkept
  simp at hkept

end Bytes

/-! ## Characters -/

namespace Text

theorem dropTrailing_of_forall {p : Char → Bool} {cs : List Char} (h : ∀ c ∈ cs, p c = false) :
    dropTrailing p cs = cs := by
  have hdrop : cs.reverse.dropWhile p = cs.reverse := by
    rw [List.dropWhile_eq_self_iff]
    intro hlen
    have hmem := List.getElem_mem hlen
    rw [h _ (List.mem_reverse.mp hmem)]
    exact Bool.false_ne_true
  rw [dropTrailing, hdrop, List.reverse_reverse]

end Text

namespace Base58

theorem digit?_char {d : Nat} (h : d < 58) : digit? (char d) = some d := by
  have hall : ∀ e : Fin 58, digit? (char e) = some e.val := by decide
  exact hall ⟨d, h⟩

theorem char_mem_alphabet (d : Nat) : char d ∈ alphabet := by
  have hone : '1' ∈ alphabet := by decide
  unfold char
  by_cases h : d < alphabet.length
  · rw [List.getD_eq_getElem _ _ h]
    exact List.getElem_mem h
  · rw [List.getD_eq_default _ _ (Nat.le_of_not_lt h)]
    exact hone

theorem char_eq_one_iff {d : Nat} (h : d < 58) : char d = '1' ↔ d = 0 := by
  have hall : ∀ e : Fin 58, char e = '1' ↔ e.val = 0 := by decide
  exact hall ⟨d, h⟩

theorem mem_alphabet_of_mem_encode {bs : Bytes} : ∀ c ∈ encode bs, c ∈ alphabet := by
  intro c hc
  rcases List.mem_append.mp hc with hc | hc
  · obtain ⟨-, -, rfl⟩ := List.mem_map.mp hc
    exact char_mem_alphabet 0
  · obtain ⟨d, -, rfl⟩ := List.mem_map.mp (List.mem_reverse.mp hc)
    exact char_mem_alphabet d

theorem not_isBlank_of_mem_alphabet : ∀ c ∈ alphabet, Text.isBlank c = false := by
  have hall : alphabet.all (fun c => !Text.isBlank c) = true := by decide
  intro c hc
  simpa using List.all_eq_true.mp hall c hc

/-! ## Reading what was written -/

/-- The digits of a number do not start with the character that stands for a zero byte. -/
theorem takeWhile_digits (n : Nat) :
    (((Digits.ofNat 58 n).reverse).map char).takeWhile (· == '1') = [] := by
  rw [List.takeWhile_eq_nil_iff]
  intro hlen hone
  have hhead := List.head?_eq_getElem? (l := (Digits.ofNat 58 n).reverse.map char)
  rw [List.getElem?_eq_getElem hlen, List.head?_map, List.head?_reverse,
    Option.map_eq_some_iff] at hhead
  obtain ⟨d, hlast, hchar⟩ := hhead
  have hd := Digits.lt_of_mem_ofNat (by decide) d (List.mem_of_getLast? hlast)
  have hzero : d = 0 := (char_eq_one_iff hd).mp (hchar.trans (eq_of_beq hone))
  rw [hzero] at hlast
  exact Digits.getLast?_ofNat_ne_zero 58 n hlast

theorem encode_eq (bs : Bytes) :
    encode bs = (List.replicate (bs.takeWhile (· == 0)).length 0 ++
      (Digits.ofNat 58 (Bytes.toNat bs)).reverse).map char := by
  rw [encode, List.map_const', List.map_append, List.map_replicate, List.map_reverse]
  rfl

theorem decode?_encode (bs : Bytes) : decode? (encode bs) = some bs := by
  let k := (bs.takeWhile (· == 0)).length
  let ds := Digits.ofNat 58 (Bytes.toNat bs)
  have hlt : ∀ d ∈ List.replicate k 0 ++ ds.reverse, d < 58 := by
    intro d hd
    rcases List.mem_append.mp hd with hd | hd
    · rw [List.eq_of_mem_replicate hd]
      decide
    · exact Digits.lt_of_mem_ofNat (by decide) d (List.mem_reverse.mp hd)
  have htrim : Text.dropTrailing Text.isBlank (encode bs) = encode bs :=
    Text.dropTrailing_of_forall fun c hc =>
      not_isBlank_of_mem_alphabet c (mem_alphabet_of_mem_encode c hc)
  have hdigits : (encode bs).mapM digit? = some (List.replicate k 0 ++ ds.reverse) := by
    rw [encode_eq]
    exact Option.mapM_eq_some_of_forall fun d hd => digit?_char (hlt d hd)
  have hzeros : (encode bs).takeWhile (· == '1') = List.replicate k '1' := by
    rw [encode_eq, List.map_append, List.map_replicate,
      List.takeWhile_append_of_pos (fun c hc => by rw [List.eq_of_mem_replicate hc]; rfl),
      takeWhile_digits, List.append_nil]
    rfl
  have hnumber : Digits.toNat 58 (List.replicate k 0 ++ ds.reverse).reverse = Bytes.toNat bs := by
    rw [List.reverse_append, List.reverse_reverse, List.reverse_replicate,
      Digits.toNat_append_zeros, Digits.toNat_ofNat (by decide)]
  rw [decode?, htrim, hdigits]
  show some ((((encode bs).takeWhile (· == '1')).map fun _ => 0) ++
    Bytes.minimal (Digits.toNat 58 (List.replicate k 0 ++ ds.reverse).reverse)) = some bs
  rw [hzeros, hnumber, Bytes.minimal_toNat, List.map_replicate, ← Bytes.takeWhile_zero_eq,
    List.takeWhile_append_dropWhile]

/-! ## Writing what was read -/

theorem char_of_digit? {c : Char} {d : Nat} (h : digit? c = some d) : d < 58 ∧ c = char d := by
  obtain ⟨hlt, heq, -⟩ := List.findIdx?_eq_some_iff_getElem.mp h
  refine ⟨hlt, ?_⟩
  rw [char, List.getD_eq_getElem _ _ hlt]
  exact (eq_of_beq heq).symm

/-- What stands for zero bytes in front is what stands for zeros in front. -/
theorem takeWhile_map_char {ds : List Nat} (hlt : ∀ d ∈ ds, d < 58) :
    (ds.map char).takeWhile (· == '1') = (ds.takeWhile (· == 0)).map char := by
  induction ds with
  | nil => rfl
  | cons d ds ih =>
    obtain ⟨hd, hds⟩ := List.forall_mem_cons.mp hlt
    have hsame : (char d == '1') = (d == 0) := by
      rw [Bool.eq_iff_iff, beq_iff_eq, beq_iff_eq]
      exact char_eq_one_iff hd
    rw [List.map_cons, List.takeWhile_cons, List.takeWhile_cons, hsame, ih hds]
    split <;> rfl

/-- Leading zeros and the digits of a number are written as they were read. -/
theorem encode_zeros_append {k : Nat} {ds : List Nat} (hlt : ∀ d ∈ ds, d < 58)
    (hhead : ds.head? ≠ some 0) :
    encode (List.replicate k 0 ++ Bytes.minimal (Digits.toNat 58 ds.reverse)) =
      (List.replicate k 0 ++ ds).map char := by
  let number := Digits.toNat 58 ds.reverse
  have hzeros : (List.replicate k 0 ++ Bytes.minimal number).takeWhile (· == 0) =
      List.replicate k 0 := by
    have hnone : (Bytes.minimal number).takeWhile (· == 0) = [] := by
      rw [List.takeWhile_eq_nil_iff]
      intro hlen hzero
      apply Bytes.head?_minimal_ne_zero number
      rw [List.head?_eq_getElem?, List.getElem?_eq_getElem hlen]
      exact congrArg some (eq_of_beq hzero)
    rw [List.takeWhile_append_of_pos (fun b hb => by rw [List.eq_of_mem_replicate hb]; rfl), hnone,
      List.append_nil]
  have hnumber : Bytes.toNat (List.replicate k 0 ++ Bytes.minimal number) = number := by
    rw [Bytes.toNat_append, Bytes.toNat_replicate_zero, Nat.zero_mul, Nat.zero_add,
      Bytes.toNat_minimal]
  have hdigits : (Digits.ofNat 58 number).reverse = ds := by
    have hlast : ds.reverse.getLast? ≠ some 0 := by
      rw [List.getLast?_reverse]
      exact hhead
    have hlts : ∀ d ∈ ds.reverse, d < 58 := fun d hd => hlt d (List.mem_reverse.mp hd)
    rw [Digits.ofNat_toNat (by decide) hlts hlast, List.reverse_reverse]
  rw [encode_eq, hzeros, hnumber, hdigits, List.length_replicate]

/-- A text that is read is what its bytes are written as, but for blanks at the end. -/
theorem encode_of_decode? {cs : List Char} {bs : Bytes} (h : decode? cs = some bs) :
    encode bs = Text.dropTrailing Text.isBlank cs := by
  obtain ⟨ds, hds, h⟩ := Option.bind_eq_some_iff.mp h
  obtain ⟨hlt, hchars⟩ := Option.eq_map_of_mapM_eq_some (fun _ _ => char_of_digit?) hds
  -- The digits are zeros, which stand for bytes of their own, and then the digits of the number.
  let k := (ds.takeWhile (· == 0)).length
  let rest := ds.dropWhile (· == 0)
  have hzeros : ds.takeWhile (· == 0) = List.replicate k 0 :=
    List.eq_replicate_of_mem fun d hd =>
      eq_of_beq (List.mem_takeWhile_imp (p := fun d => d == 0) hd)
  have hsplit : ds = List.replicate k 0 ++ rest := by
    rw [← hzeros]
    exact List.takeWhile_append_dropWhile.symm
  have hrest : ∀ d ∈ rest, d < 58 := fun d hd => hlt d ((List.dropWhile_sublist _).subset hd)
  have hhead : rest.head? ≠ some 0 := by
    intro hzero
    have hkept := List.head?_dropWhile_not (· == 0) ds
    rw [hzero] at hkept
    simp at hkept
  have hones : (Text.dropTrailing Text.isBlank cs).takeWhile (· == '1') = List.replicate k '1' := by
    rw [hchars, takeWhile_map_char hlt, hzeros, List.map_replicate]
    rfl
  have hnumber : Digits.toNat 58 ds.reverse = Digits.toNat 58 rest.reverse := by
    rw [hsplit, List.reverse_append, List.reverse_replicate, Digits.toNat_append_zeros]
  rw [hones, hnumber, List.map_replicate] at h
  rw [← Option.some.inj h, encode_zeros_append hrest hhead, ← hsplit, ← hchars]

/-! ## The checked form -/

theorem length_check (payload : Bytes) : (check payload).length = checkLength := by
  rw [check, List.length_take, Sha256.length_hash]
  rfl

/-- The checked form is read back. -/
theorem decodeChecked_encodeChecked (payload : Bytes) :
    decodeChecked (encodeChecked payload) = .ok payload := by
  have hlen : (payload ++ check payload).length - checkLength = payload.length := by
    rw [List.length_append, length_check]
    omega
  have hlong : ¬(payload ++ check payload).length < checkLength := by
    rw [List.length_append, length_check]
    omega
  simp only [decodeChecked, encodeChecked, String.toList_ofList, decode?_encode, if_neg hlong, hlen,
    List.take_left, List.drop_left, ↓reduceIte]

theorem mem_alphabet_of_mem_encodeChecked {payload : Bytes} :
    ∀ c ∈ (encodeChecked payload).toList, c ∈ alphabet := by
  rw [encodeChecked, String.toList_ofList]
  exact mem_alphabet_of_mem_encode

end Base58

end MetaTx
