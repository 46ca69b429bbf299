import Mathlib.Algebra.Group.Nat.Defs
import Mathlib.Data.List.ReduceOption
import MetaTx.Text.Integer

/-!
# Decimal integers are read back

The decimal digits of a number are a plain form: no zero stands in front, and nothing around them.
So the strict reader gives the number back, as long as it takes that many digits. It takes as many
as an integer may have to be written.
-/

namespace MetaTx.Text

/-! ## Integers that are written -/

/-- The least number with too many digits to be written. It is never to be computed. -/
@[irreducible] def writeLimit : Nat := 10 ^ maxDigits

theorem isWritable_iff {n : Int} : isWritable n = true ↔ n.natAbs < writeLimit := by
  unfold isWritable writeLimit
  rw [decide_eq_true_iff]
  exact Nat.length_toDigits_le_iff (by decide) (by decide)

theorem isWritable_eq_false_iff {n : Int} : isWritable n = false ↔ writeLimit ≤ n.natAbs := by
  rw [← Bool.not_eq_true, isWritable_iff, Nat.not_lt]

/-- Numbers of 256 bits have few digits. -/
theorem lt_writeLimit {n : Nat} (h : n < 2 ^ 256) : n < writeLimit := by
  have hsmall : 2 ^ 256 < 10 ^ 78 := by decide
  unfold writeLimit
  exact Nat.lt_of_lt_of_le (Nat.lt_trans h hsmall) (Nat.pow_le_pow_right (by decide) (by decide))

/-! ## Integers that are read -/

theorem asciiDigitValue?_digitChar {d : Nat} (h : d < 10) :
    asciiDigitValue? (Nat.digitChar d) = some d := by
  have hall : ∀ e : Fin 10, asciiDigitValue? (Nat.digitChar e) = some e.val := by decide
  exact hall ⟨d, h⟩

theorem digitChar_eq_zero_iff {d : Nat} (h : d < 10) : Nat.digitChar d = '0' ↔ d = 0 := by
  have hall : ∀ e : Fin 10, Nat.digitChar e = '0' ↔ e.val = 0 := by decide
  exact hall ⟨d, h⟩

theorem ofDigits_concat (ds : List Nat) (d : Nat) : ofDigits (ds ++ [d]) = ofDigits ds * 10 + d := by
  simp [ofDigits, List.foldl_append]

/-- The digits of a number have values, which spell the number. -/
theorem exists_values_toDigits (n : Nat) :
    ∃ ds, (Nat.toDigits 10 n).map asciiDigitValue? = ds.map some ∧ ofDigits ds = n := by
  induction n using Nat.strongRecOn with
  | _ n ih =>
    rw [Nat.toDigits_eq_if (by decide)]
    by_cases hn : n < 10
    · rw [if_pos hn]
      refine ⟨[n], ?_, ?_⟩
      · rw [List.map_singleton, asciiDigitValue?_digitChar hn, List.map_singleton]
      · simp [ofDigits]
    · rw [if_neg hn]
      have hlast : n % 10 < 10 := Nat.mod_lt n (by decide)
      obtain ⟨ds, hds, hvalue⟩ := ih (n / 10) (Nat.div_lt_self (by omega) (by decide))
      refine ⟨ds ++ [n % 10], ?_, ?_⟩
      · rw [List.map_append, hds, List.map_singleton, asciiDigitValue?_digitChar hlast,
          List.map_append, List.map_singleton]
      · rw [ofDigits_concat, hvalue]
        omega

/-- Only the number zero has a zero in front. -/
theorem eq_zero_of_head?_toDigits {n : Nat} (h : (Nat.toDigits 10 n).head? = some '0') : n = 0 := by
  induction n using Nat.strongRecOn with
  | _ n ih =>
    rw [Nat.toDigits_eq_if (by decide)] at h
    by_cases hn : n < 10
    · rw [if_pos hn, List.head?_cons, Option.some.injEq] at h
      exact (digitChar_eq_zero_iff hn).mp h
    · obtain ⟨c, cs, hfront⟩ := List.exists_cons_of_ne_nil (Nat.toDigits_ne_nil (n := n / 10) (b := 10))
      rw [if_neg hn, hfront, List.cons_append, List.head?_cons] at h
      have hzero := ih (n / 10) (Nat.div_lt_self (by omega) (by decide))
        (by rw [hfront, List.head?_cons, h])
      omega

theorem takeWhile_isSome_map_some {α : Type} (as : List α) :
    (as.map some).takeWhile Option.isSome = as.map some := by
  induction as with
  | nil => rfl
  | cons a as ih => rw [List.map_cons, List.takeWhile_cons, Option.isSome_some, if_pos rfl, ih]

theorem reduceOption_map_some {α : Type} (as : List α) : (as.map some).reduceOption = as := by
  rw [List.reduceOption, List.filterMap_map]
  exact List.filterMap_some

theorem readPlainInt_toDigits {n : Nat} (h : (Nat.toDigits 10 n).length ≤ maxDigits) :
    readPlainInt (Nat.toDigits 10 n) = .ok n := by
  obtain ⟨ds, hds, hvalue⟩ := exists_values_toDigits n
  have hlen : ds.length = (Nat.toDigits 10 n).length := by
    have hmap := congrArg List.length hds
    rw [List.length_map, List.length_map] at hmap
    exact hmap.symm
  cases hdigits : Nat.toDigits 10 n with
  | nil => exact absurd hdigits Nat.toDigits_ne_nil
  | cons c rest =>
    by_cases hzero : c = '0'
    · have hn : n = 0 := eq_zero_of_head?_toDigits (by rw [hdigits, hzero, List.head?_cons])
      subst hn
      cases hdigits
      rfl
    · have hminus : c ≠ '-' := by
        rintro rfl
        have hdigit := Nat.isDigit_of_mem_toDigits (b := 10) (n := n) (by decide) (by decide)
          (hdigits ▸ List.mem_cons_self)
        exact absurd hdigit (by decide)
      rw [hdigits] at h hds hlen
      have hshort : ¬maxDigits < ds.length + 0 := by omega
      have hwhole : ¬((ds.map some).isEmpty = true ∨ ds.length < (c :: rest).length) := by
        rw [List.isEmpty_iff, List.map_eq_nil_iff]
        rintro (hnil | hlt)
        · rw [hnil] at hlen
          cases hlen
        · omega
      unfold readPlainInt
      split
      next negative digits hsplit =>
        split at hsplit
        · next heq => exact absurd (List.cons.inj heq).1 hminus
        · cases hsplit
          simp only [hds, takeWhile_isSome_map_some, List.head?_cons, Bool.false_eq_true, ↓reduceIte,
            List.length_map, if_neg hshort, if_neg hwhole, reduceOption_map_some, hvalue, applySign]

/-- A number in decimal digits is read back. -/
theorem readStrictInt_toString {n : Nat} (h : n < 10 ^ maxDigits) :
    readStrictInt (toString n) = .ok n := by
  have hlen : (Nat.toDigits 10 n).length ≤ maxDigits :=
    (Nat.length_toDigits_le_iff (by decide) (by decide)).mpr h
  rw [Nat.toString_eq_ofList_toDigits, readStrictInt, String.toList_ofList,
    readPlainInt_toDigits hlen]

end MetaTx.Text
