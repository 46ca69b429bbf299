import MetaTx.Key.Info
import MetaTx.Proofs.Bytes.Number
import MetaTx.Proofs.Curve.Lift
import MetaTx.Proofs.Except

/-!
# Which bytes are public keys

The short form is read for the points of the curve and for nothing else. The long form is read for
any two coordinates of 32 bytes, on the curve or not. A key that is not on the curve has no short
form, and with it none of the addresses that come from there. What is read in either form is written
back in it, so a key on the curve has the same identifiers whichever form it came in.
-/

namespace MetaTx.PublicKey

open Secp256k1

variable {key : PublicKey}

/-! ## The short form -/

/-- The byte in front of the abscissa. -/
def parityMark (key : PublicKey) : UInt8 := if key.y % 2 = 1 then 0x03 else 0x02

theorem toPoint_eq (h : isOnCurve key.x key.y = true) : key.toPoint = .ok (.affine key.x key.y) := by
  rw [toPoint, if_pos h]

theorem toPoint_eq_error (h : isOnCurve key.x key.y = false) :
    key.toPoint = .error (.fault .offCurve) := by
  rw [toPoint, h, if_neg Bool.false_ne_true]

theorem toShort_eq (h : isOnCurve key.x key.y = true) :
    key.toShort = .ok (key.parityMark :: Bytes.ofNat 32 key.x) := by
  rw [toShort, toPoint_eq h]
  rfl

theorem toShort_eq_error (h : isOnCurve key.x key.y = false) :
    key.toShort = .error (.fault .offCurve) := by
  rw [toShort, toPoint_eq_error h]
  rfl

theorem isOnCurve_of_toShort {raw : Bytes} (h : key.toShort = .ok raw) :
    isOnCurve key.x key.y = true := by
  by_contra hcurve
  rw [toShort_eq_error (Bool.not_eq_true _ ▸ hcurve)] at h
  cases h

theorem lt_limit_of_lt_p {x : Nat} (h : x < p) : x < Bytes.limit 32 := Nat.lt_trans h (by decide)

theorem parityMark_cases (key : PublicKey) : key.parityMark = 0x02 ∨ key.parityMark = 0x03 := by
  unfold parityMark
  split
  · exact .inr rfl
  · exact .inl rfl

theorem parityMark_eq_iff {mark : UInt8} (hmark : mark = 0x02 ∨ mark = 0x03) :
    key.parityMark = mark ↔ (key.y % 2 == 1) = (mark == 0x03) := by
  unfold parityMark
  by_cases hodd : key.y % 2 = 1
  · rcases hmark with rfl | rfl <;> simp [hodd]
  · rcases hmark with rfl | rfl <;> simp [hodd]

theorem ofShort_of_mark {mark : UInt8} (hmark : mark = 0x02 ∨ mark = 0x03) (abscissa : Bytes) :
    ofShort mark abscissa = match lift? (Bytes.toNat abscissa) (mark == 0x03) with
      | some point => .ok (ofPoint point)
      | none => .error (.fault .offCurve) := by
  refine if_neg ?_
  rintro ⟨htwo, hthree⟩
  exact hmark.elim htwo hthree

/-- Behind either mark, the short form is that of a point or is refused as none. -/
theorem ofShort_eq_ok_iff {mark : UInt8} {abscissa : Bytes} (hmark : mark = 0x02 ∨ mark = 0x03)
    (hlength : abscissa.length = 32) :
    ofShort mark abscissa = .ok key ↔ key.toShort = .ok (mark :: abscissa) := by
  rw [ofShort_of_mark hmark]
  constructor
  · intro h
    cases hlift : lift? (Bytes.toNat abscissa) (mark == 0x03) with
    | none =>
      rw [hlift] at h
      cases h
    | some point =>
      obtain ⟨y, rfl, hcurve, hparity⟩ := of_lift? hlift
      rw [hlift] at h
      obtain rfl := Except.ok.inj h
      rw [toShort_eq hcurve, (parityMark_eq_iff hmark).mpr hparity]
      show Except.ok (mark :: Bytes.ofNat 32 (Bytes.toNat abscissa)) = _
      rw [← hlength, Bytes.ofNat_toNat]
  · intro h
    have hcurve := isOnCurve_of_toShort h
    rw [toShort_eq hcurve, Except.ok.injEq, List.cons.injEq] at h
    obtain ⟨hfront, rfl⟩ := h
    rw [Bytes.toNat_ofNat (lt_limit_of_lt_p (isOnCurve_iff.mp hcurve).1),
      ← (parityMark_eq_iff hmark).mp hfront, lift?_eq_some hcurve]
    rfl

theorem ofShort_eq_error {mark : UInt8} {abscissa : Bytes} (hmark : mark = 0x02 ∨ mark = 0x03)
    (h : ∀ y, isOnCurve (Bytes.toNat abscissa) y = false) :
    ofShort mark abscissa = .error (.fault .offCurve) := by
  rw [ofShort_of_mark hmark, lift?_eq_none_iff.mpr h]

/-! ## The long form -/

theorem length_toLong (key : PublicKey) : key.toLong.length = 65 := by
  rw [toLong, coordinates, List.length_cons, List.length_append, Bytes.length_ofNat,
    Bytes.length_ofNat]

/-- A long form is that of two coordinates of 32 bytes, whatever these are. -/
theorem toLong_eq_iff {body : Bytes} (hlength : body.length = 64) :
    (key.x < Bytes.limit 32 ∧ key.y < Bytes.limit 32 ∧ key.toLong = 0x04 :: body) ↔
      key = ⟨Bytes.toNat (body.take 32), Bytes.toNat (body.drop 32)⟩ := by
  have hfront : (body.take 32).length = 32 := by rw [List.length_take, hlength]; rfl
  have hback : (body.drop 32).length = 32 := by rw [List.length_drop, hlength]
  constructor
  · rintro ⟨hx, hy, h⟩
    rw [toLong, List.cons.injEq] at h
    obtain ⟨-, rfl⟩ := h
    rw [coordinates, List.take_left' (Bytes.length_ofNat _ _),
      List.drop_left' (Bytes.length_ofNat _ _), Bytes.toNat_ofNat hx, Bytes.toNat_ofNat hy]
  · rintro rfl
    have hxlt := Bytes.toNat_lt (body.take 32)
    have hylt := Bytes.toNat_lt (body.drop 32)
    rw [hfront] at hxlt
    rw [hback] at hylt
    refine ⟨hxlt, hylt, ?_⟩
    rw [toLong, coordinates]
    show _ :: (Bytes.ofNat 32 (Bytes.toNat (body.take 32)) ++
      Bytes.ofNat 32 (Bytes.toNat (body.drop 32))) = _
    have hread := Bytes.ofNat_toNat (body.take 32)
    have hread' := Bytes.ofNat_toNat (body.drop 32)
    rw [hfront] at hread
    rw [hback] at hread'
    rw [hread, hread', List.take_append_drop]

/-! ## Either form -/

theorem ofBytes_short {mark : UInt8} {abscissa : Bytes} (hlength : abscissa.length = 32) :
    ofBytes (mark :: abscissa) = ofShort mark abscissa := by
  have hshort : (mark :: abscissa).length = shortWidth := by rw [List.length_cons, hlength]; rfl
  rw [ofBytes, if_pos hshort]
  rfl

theorem ofBytes_long {body : Bytes} (hlength : body.length = 64) :
    ofBytes (0x04 :: body) = .ok ⟨Bytes.toNat (body.take 32), Bytes.toNat (body.drop 32)⟩ := by
  have hshort : (0x04 :: body : Bytes).length ≠ shortWidth := by
    rw [List.length_cons, hlength]
    decide
  have hlong : (0x04 :: body : Bytes).length = Sized.publicKey.width := by
    rw [List.length_cons, hlength]
    rfl
  rw [ofBytes, if_neg hshort, if_pos hlong]
  rfl

theorem ofBytes_unmarked {mark : UInt8} {body : Bytes} (hlength : body.length = 64)
    (hmark : mark ≠ 0x04) : ofBytes (mark :: body) = .error (.keyText .longKeyMark) := by
  have hshort : (mark :: body).length ≠ shortWidth := by
    rw [List.length_cons, hlength]
    decide
  have hlong : (mark :: body).length = Sized.publicKey.width := by rw [List.length_cons, hlength]; rfl
  rw [ofBytes, if_neg hshort, if_pos hlong, List.headD_cons, if_neg hmark]

theorem ofBytes_of_length {raw : Bytes} (hshort : raw.length ≠ shortWidth)
    (hlong : raw.length ≠ Sized.publicKey.width) :
    ofBytes raw = .error (.length .publicKey raw.length) := by
  rw [ofBytes, if_neg hshort, if_neg hlong]

theorem length_of_toShort {raw : Bytes} (h : key.toShort = .ok raw) : raw.length = 33 := by
  rw [toShort_eq (isOnCurve_of_toShort h), Except.ok.injEq] at h
  rw [← h, List.length_cons, Bytes.length_ofNat]

/-- Bytes are read if they are the short form of a point, or the long form of two coordinates. -/
theorem ofBytes_eq_ok_iff {raw : Bytes} : ofBytes raw = .ok key ↔ key.toShort = .ok raw ∨
    key.x < Bytes.limit 32 ∧ key.y < Bytes.limit 32 ∧ key.toLong = raw := by
  by_cases hshort : raw.length = 33
  · obtain ⟨mark, abscissa, rfl⟩ := List.exists_cons_of_length_eq_add_one hshort
    have hlength : abscissa.length = 32 := Nat.succ.inj hshort
    have hlong : key.toLong ≠ mark :: abscissa := fun h => by
      have hlen := congrArg List.length h
      rw [length_toLong, hshort] at hlen
      cases hlen
    rw [ofBytes_short hlength]
    by_cases hmark : mark = 0x02 ∨ mark = 0x03
    · rw [ofShort_eq_ok_iff hmark hlength]
      exact ⟨.inl, fun h => h.resolve_right fun hlong' => hlong hlong'.2.2⟩
    · constructor
      · intro h
        rw [ofShort, if_pos (not_or.mp hmark)] at h
        cases h
      · rintro (h | ⟨-, -, h⟩)
        · rw [toShort_eq (isOnCurve_of_toShort h), Except.ok.injEq, List.cons.injEq] at h
          exact absurd (h.1 ▸ key.parityMark_cases) hmark
        · exact absurd h hlong
  · have hnot : key.toShort ≠ .ok raw := fun h => hshort (length_of_toShort h)
    by_cases hlong : raw.length = 65
    · obtain ⟨mark, body, rfl⟩ := List.exists_cons_of_length_eq_add_one hlong
      have hlength : body.length = 64 := Nat.succ.inj hlong
      by_cases hmark : mark = 0x04
      · subst hmark
        rw [ofBytes_long hlength, Except.ok.injEq, or_iff_right hnot, toLong_eq_iff hlength]
        exact eq_comm
      · rw [ofBytes_unmarked hlength hmark]
        constructor
        · intro h
          cases h
        · rintro (h | ⟨-, -, h⟩)
          · exact absurd h hnot
          · exact absurd (List.cons.inj h).1.symm hmark
    · rw [ofBytes_of_length hshort hlong]
      constructor
      · intro h
        cases h
      · rintro (h | ⟨-, -, h⟩)
        · exact absurd h hnot
        · exact absurd (h ▸ key.length_toLong) hlong

/-! ## What needs the curve -/

theorem shortId_eq (h : isOnCurve key.x key.y = true) :
    key.shortId = .ok (hash160 (key.parityMark :: Bytes.ofNat 32 key.x)) := by
  rw [shortId, toShort_eq h]
  rfl

/-- What is shown of a key on the curve has one address on three chains. -/
theorem info_eq {id : Bytes} (network : Int) (h : key.shortId = .ok id) :
    key.info network = .ok (.ofNetworks (Base58.encodeChecked id) key.account
      [(network, ⟨"X-" ++ Bech32.encode (Network.hrp network) id,
        "P-" ++ Bech32.encode (Network.hrp network) id,
        "C-" ++ Bech32.encode (Network.hrp network) id⟩)]) := by
  simp only [info, chainAddress, shortAddress, h, Except.ok_bind]
  rfl

theorem exists_info_iff {network : Int} :
    (∃ info, key.info network = .ok info) ↔ isOnCurve key.x key.y = true := by
  constructor
  · rintro ⟨info, h⟩
    obtain ⟨x, hx, -⟩ := Except.bind_eq_ok_iff.mp h
    obtain ⟨id, hid, -⟩ := Except.bind_eq_ok_iff.mp hx
    obtain ⟨short, hshort, -⟩ := Except.bind_eq_ok_iff.mp hid
    exact isOnCurve_of_toShort hshort
  · intro h
    exact ⟨_, info_eq network (shortId_eq h)⟩

/-- **Which bytes are public keys.** Bytes are read as a key if they are the short form of a point of
the curve, or the long form of two coordinates, which need not be those of a point. Of the bytes
that are refused, those of another length are refused for it, those with another mark for that, and
a short form whose abscissa is that of no point ends in a fault. The addresses of a key can be made
exactly if it is on the curve. -/
theorem ofBytes_outcome (raw : Bytes) :
    (∀ key, ofBytes raw = .ok key ↔ key.toShort = .ok raw ∨
      key.x < Bytes.limit 32 ∧ key.y < Bytes.limit 32 ∧ key.toLong = raw) ∧
    (raw.length ≠ 33 → raw.length ≠ 65 → ofBytes raw = .error (.length .publicKey raw.length)) ∧
    (∀ mark body, raw = mark :: body →
      (body.length = 64 → mark ≠ 0x04 → ofBytes raw = .error (.keyText .longKeyMark)) ∧
      (body.length = 32 → mark ≠ 0x02 → mark ≠ 0x03 →
        ofBytes raw = .error (.keyText .publicKey)) ∧
      (body.length = 32 → mark = 0x02 ∨ mark = 0x03 →
        (∀ y, isOnCurve (Bytes.toNat body) y = false) →
          ofBytes raw = .error (.fault .offCurve))) ∧
    ∀ (key : PublicKey) (network : Int),
      (∃ info, key.info network = .ok info) ↔ isOnCurve key.x key.y = true := by
  refine ⟨fun key => ofBytes_eq_ok_iff, ofBytes_of_length, ?_, fun key network => exists_info_iff⟩
  rintro mark body rfl
  refine ⟨ofBytes_unmarked, fun hlength htwo hthree => ?_, fun hlength hmark hnone => ?_⟩
  · rw [ofBytes_short hlength, ofShort, if_pos ⟨htwo, hthree⟩]
  · rw [ofBytes_short hlength, ofShort_eq_error hmark hnone]

theorem ofBytes_outcome_samples :
    ofBytes [] = .error (.length .publicKey 0) ∧
      ofBytes (0x05 :: Bytes.ofNat 64 1) = .error (.keyText .longKeyMark) ∧
      ofBytes (0x05 :: Bytes.ofNat 32 1) = .error (.keyText .publicKey) ∧
      ofBytes (0x03 :: Bytes.ofNat 32 5) = .error (.fault .offCurve) := by
  have hnone : ∀ y, isOnCurve (Bytes.toNat (Bytes.ofNat 32 5)) y = false :=
    lift?_eq_none_iff.mp (by decide +kernel : lift? (Bytes.toNat (Bytes.ofNat 32 5)) false = none)
  obtain ⟨-, hother, -⟩ := ofBytes_outcome []
  obtain ⟨-, -, hlong, -⟩ := ofBytes_outcome (0x05 :: Bytes.ofNat 64 1)
  obtain ⟨-, -, hunmarked, -⟩ := ofBytes_outcome (0x05 :: Bytes.ofNat 32 1)
  obtain ⟨-, -, hshort, -⟩ := ofBytes_outcome (0x03 :: Bytes.ofNat 32 5)
  exact ⟨hother (by decide) (by decide), (hlong _ _ rfl).1 rfl (by decide),
    (hunmarked _ _ rfl).2.1 rfl (by decide) (by decide),
    (hshort _ _ rfl).2.2 rfl (.inr rfl) hnone⟩

/-- Two ones are read as a key, which is not on the curve. No point has the abscissa five, and its
short form ends in a fault. -/
theorem ofBytes_offCurve :
    ofBytes (0x04 :: (Bytes.ofNat 32 1 ++ Bytes.ofNat 32 1)) = .ok ⟨1, 1⟩ ∧
      isOnCurve 1 1 = false ∧ ofBytes (0x02 :: Bytes.ofNat 32 5) = .error (.fault .offCurve) := by
  have hlift : lift? (Bytes.toNat (Bytes.ofNat 32 5)) false = none := by decide +kernel
  refine ⟨ofBytes_long rfl, by decide, ?_⟩
  rw [ofBytes_short rfl, ofShort_eq_error (.inl rfl) (lift?_eq_none_iff.mp hlift)]

/-! ## Round trips -/

theorem isOnCurve_lt (h : isOnCurve key.x key.y = true) :
    key.x < Bytes.limit 32 ∧ key.y < Bytes.limit 32 := by
  obtain ⟨hx, hy, -⟩ := isOnCurve_iff.mp h
  exact ⟨lt_limit_of_lt_p hx, lt_limit_of_lt_p hy⟩

theorem toShort_of_ofBytes {raw : Bytes} (hlength : raw.length = 33) (h : ofBytes raw = .ok key) :
    key.toShort = .ok raw := by
  rcases ofBytes_eq_ok_iff.mp h with hshort | ⟨-, -, rfl⟩
  · exact hshort
  · rw [length_toLong] at hlength
    cases hlength

theorem toLong_of_ofBytes {raw : Bytes} (hlength : raw.length = 65) (h : ofBytes raw = .ok key) :
    key.toLong = raw := by
  rcases ofBytes_eq_ok_iff.mp h with hshort | ⟨-, -, hlong⟩
  · rw [length_of_toShort hshort] at hlength
    cases hlength
  · exact hlong

/-- What is derived from the bytes of a key: its short id, its account, and what may be shown of it
on a network. -/
def identify (network : Int) (raw : Bytes) : Except Error (Bytes × Bytes × KeyInfo) := do
  let key ← ofBytes raw
  let id ← key.shortId
  let info ← key.info network
  return (id, key.accountBytes, info)

/-- A key on the curve has identifiers, and bytes that are read as the key lead to these. -/
theorem exists_identify (h : isOnCurve key.x key.y = true) (network : Int) :
    ∃ identifiers, ∀ raw, ofBytes raw = .ok key → identify network raw = .ok identifiers := by
  have hid := shortId_eq h
  obtain ⟨info, hinfo⟩ : ∃ info, key.info network = .ok info := exists_info_iff.mpr h
  refine ⟨(hash160 (key.parityMark :: Bytes.ofNat 32 key.x), key.accountBytes, info), ?_⟩
  intro raw hraw
  rw [identify, hraw, Except.ok_bind, hid, Except.ok_bind, hinfo]
  rfl

/-- **Both forms of a key are read back.** A key on the curve has a short and a long form, each of
which is read as the key, and so leads to the same identifiers. Whatever else is read as a key, it
is what the key is written as in that many bytes. -/
theorem ofBytes_roundTrip :
    (∀ key : PublicKey, isOnCurve key.x key.y = true → ∃ short, key.toShort = .ok short ∧
      ofBytes short = .ok key ∧ ofBytes key.toLong = .ok key ∧
      ∀ network, ∃ identifiers, identify network short = .ok identifiers ∧
        identify network key.toLong = .ok identifiers) ∧
    (∀ raw key, raw.length = 33 → ofBytes raw = .ok key → key.toShort = .ok raw) ∧
    ∀ raw key, raw.length = 65 → ofBytes raw = .ok key → key.toLong = raw := by
  refine ⟨?_, fun raw key => toShort_of_ofBytes, fun raw key => toLong_of_ofBytes⟩
  intro key h
  obtain ⟨hx, hy⟩ := isOnCurve_lt h
  have hshort := toShort_eq h
  have hread := ofBytes_eq_ok_iff.mpr (.inl hshort)
  have hreadLong : ofBytes key.toLong = .ok key := ofBytes_eq_ok_iff.mpr (.inr ⟨hx, hy, rfl⟩)
  refine ⟨_, hshort, hread, hreadLong, fun network => ?_⟩
  obtain ⟨identifiers, hidentify⟩ := exists_identify h network
  exact ⟨identifiers, hidentify _ hread, hidentify _ hreadLong⟩

/-- The key over the abscissa one with an odd ordinate; its short form has 31 zero bytes. -/
def overOne : PublicKey where
  x := 1
  y := 85895366384747149408010284714111852077055649506395260922968891100383188440129

theorem ofBytes_roundTrip_overOne :
    isOnCurve overOne.x overOne.y = true ∧
      (∃ short, overOne.toShort = .ok short ∧ ofBytes short = .ok overOne ∧
        ofBytes overOne.toLong = .ok overOne) ∧
      overOne.toShort = .ok (0x03 :: Bytes.ofNat 32 1) ∧
      (PublicKey.mk 1 1).toLong = 0x04 :: (Bytes.ofNat 32 1 ++ Bytes.ofNat 32 1) := by
  have hcurve : isOnCurve overOne.x overOne.y = true := by decide +kernel
  obtain ⟨hforms, hshort, hlong⟩ := ofBytes_roundTrip
  obtain ⟨short, htoShort, hread, hreadLong, -⟩ := hforms overOne hcurve
  have hmark : ofBytes (0x03 :: Bytes.ofNat 32 1) = .ok overOne := by
    rw [ofBytes_short rfl, ofShort_eq_ok_iff (.inr rfl) rfl, toShort_eq hcurve]
    rfl
  exact ⟨hcurve, ⟨short, htoShort, hread, hreadLong⟩, hshort _ _ rfl hmark,
    hlong _ _ rfl (ofBytes_long rfl)⟩

end MetaTx.PublicKey
