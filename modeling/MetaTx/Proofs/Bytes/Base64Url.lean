import MetaTx.Bytes.Base64Url

/-!
# Base 64 is read back

Three bytes are four characters, whose values hold all their bits. One or two bytes at the end are
padded, and the padding ends the text where they do.
-/

namespace MetaTx.Base64Url

/-! ## Characters -/

theorem digit?_char {d : Nat} (h : d < 64) : digit? (char d) = some d := by
  have hall : ∀ e : Fin 64, digit? (char e) = some e.val := by decide +kernel
  exact hall ⟨d, h⟩

theorem char_ne_pad {d : Nat} (h : d < 64) : char d ≠ '=' := by
  have hall : ∀ e : Fin 64, char e ≠ '=' := by decide +kernel
  exact hall ⟨d, h⟩

/-! ## Groups -/

/-- The first three characters of a group are kept for the fourth, which completes it. -/
theorem decodeFrom?_group {x y z w : Nat} (rest : List Char) (hx : x < 64) (hy : y < 64)
    (hz : z < 64) (hw : w < 64) :
    decodeFrom? [] 0 (char x :: char y :: char z :: char w :: rest) =
      (decodeFrom? [] 0 rest).map fun bs =>
        (x * 4 + y / 16).toUInt8 :: (y * 16 + z / 4).toUInt8 :: (z * 64 + w).toUInt8 :: bs := by
  simp [decodeFrom?, digit?_char, char_ne_pad, hx, hy, hz, hw]

theorem decodeFrom?_one {x y : Nat} (hx : x < 64) (hy : y < 64) :
    decodeFrom? [] 0 [char x, char y, '=', '='] = some [(x * 4 + y / 16).toUInt8] := by
  simp [decodeFrom?, digit?_char, char_ne_pad, hx, hy]

theorem decodeFrom?_two {x y z : Nat} (hx : x < 64) (hy : y < 64) (hz : z < 64) :
    decodeFrom? [] 0 [char x, char y, char z, '='] =
      some [(x * 4 + y / 16).toUInt8, (y * 16 + z / 4).toUInt8] := by
  simp [decodeFrom?, digit?_char, char_ne_pad, hx, hy, hz]

theorem toUInt8_eq {n : Nat} {b : UInt8} (h : n % 256 = b.toNat) : n.toUInt8 = b := by
  apply UInt8.toNat_inj.mp
  rw [← h]
  exact UInt8.toNat_ofNat'

theorem decode?_encode (bs : Bytes) : decode? (encode bs) = some bs := by
  rw [decode?]
  fun_induction encode bs with
  | case1 => rfl
  | case2 a =>
    have ha := a.toNat_lt
    rw [decodeFrom?_one (by omega) (by omega)]
    exact congrArg some (congrArg (· :: []) (toUInt8_eq (by omega)))
  | case3 a b =>
    have ha := a.toNat_lt
    have hb := b.toNat_lt
    rw [decodeFrom?_two (by omega) (by omega) (by omega), toUInt8_eq (b := a) (by omega),
      toUInt8_eq (b := b) (by omega)]
  | case4 a b c rest ih =>
    have ha := a.toNat_lt
    have hb := b.toNat_lt
    have hc := c.toNat_lt
    rw [decodeFrom?_group _ (by omega) (by omega) (by omega) (by omega), ih,
      toUInt8_eq (b := a) (by omega), toUInt8_eq (b := b) (by omega),
      toUInt8_eq (b := c) (by omega)]
    rfl

end MetaTx.Base64Url
