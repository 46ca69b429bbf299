import MetaTx.Proofs.Der
import MetaTx.Proofs.Der.ObjectId
import MetaTx.Proofs.Key.Public

/-!
# Which bytes are encoded keys of secp256k1

Bytes are read as a key of secp256k1 if they are what the key is written as, with its point in one
of three forms, and if the point is on the curve. Around the point everything is fixed: the
identifiers of the algorithm and the curve, and all tags and lengths. No domain that is spelled out
is taken for this curve, and neither is the key of any other algorithm.
-/

namespace MetaTx.Der

variable {bs content : Bytes} {key : PublicKey}

/-! ## Points -/

/-- The forms in which a point is written. -/
inductive PointForm
  | short
  | long
  /-- Both coordinates, and the parity of the ordinate in the mark in front. -/
  | mixed

/-- A point in one of its forms. -/
def point : PointForm → PublicKey → Bytes
  | .short, key => key.parityMark :: Bytes.ofNat 32 key.x
  | .long, key => key.toLong
  | .mixed, key => (if key.y % 2 = 1 then 0x07 else 0x06) :: key.coordinates

theorem length_coordinates (key : PublicKey) : key.coordinates.length = 64 := by
  rw [PublicKey.coordinates, List.length_append, Bytes.length_ofNat, Bytes.length_ofNat]

theorem length_point_le (form : PointForm) (key : PublicKey) : (point form key).length ≤ 65 := by
  cases form with
  | short =>
    rw [point, List.length_cons, Bytes.length_ofNat]
    omega
  | long => exact (PublicKey.length_toLong key).le
  | mixed =>
    rw [point, List.length_cons, length_coordinates]

/-- The short form is read as the point that it is the form of. -/
theorem curvePoint?_short_iff {mark : UInt8} {body : Bytes} (hmark : mark = 0x02 ∨ mark = 0x03) :
    curvePoint? (mark :: body) = some key ↔
      body.length = 32 ∧ key.toShort = .ok (mark :: body) := by
  rw [curvePoint?, if_pos hmark]
  by_cases hlen : body.length = 32
  · rw [if_pos hlen, List.take_of_length_le hlen.le, and_iff_right hlen,
      ← PublicKey.ofShort_eq_ok_iff hmark hlen, PublicKey.ofShort_of_mark hmark]
    cases Secp256k1.lift? (Bytes.toNat body) (mark == 0x03) with
    | none => simp
    | some point => simp
  · simp [hlen]

/-- Whether a mark is one in front of both coordinates. -/
def isLongMark (mark : UInt8) (y : Nat) : Bool :=
  mark == 0x04 || mark == 0x06 && y % 2 == 0 || mark == 0x07 && y % 2 == 1

/-- Behind any other mark, the coordinates are read as they stand. -/
theorem curvePoint?_long_iff {mark : UInt8} {body : Bytes} (hmark : ¬(mark = 0x02 ∨ mark = 0x03)) :
    curvePoint? (mark :: body) = some key ↔ body = key.coordinates ∧
      Secp256k1.isOnCurve key.x key.y = true ∧ isLongMark mark key.y = true := by
  rw [curvePoint?, if_neg hmark, Option.ite_none_right_eq_some, Bool.and_eq_true,
    Bool.and_eq_true, decide_eq_true_eq, Option.some.injEq]
  constructor
  · intro ⟨⟨⟨hlen, hcurve⟩, hlong⟩, hkey⟩
    have hread := (PublicKey.toLong_eq_iff hlen).mpr hkey.symm
    obtain rfl := hkey
    exact ⟨(List.cons.inj hread.2.2).2.symm, hcurve, hlong⟩
  · intro ⟨hbody, hcurve, hlong⟩
    have hlen : body.length = 64 := hbody ▸ length_coordinates key
    obtain ⟨hx, hy⟩ := PublicKey.isOnCurve_lt hcurve
    have hkey := (PublicKey.toLong_eq_iff hlen).mp ⟨hx, hy, congrArg (List.cons 0x04) hbody.symm⟩
    have hxread : Bytes.toNat (body.take 32) = key.x := (congrArg PublicKey.x hkey).symm
    have hyread : Bytes.toNat (body.drop 32) = key.y := (congrArg PublicKey.y hkey).symm
    rw [hxread, hyread]
    exact ⟨⟨⟨hlen, hcurve⟩, hlong⟩, rfl⟩

/-- A point is read from its forms, and from nothing else. -/
theorem curvePoint?_eq_some_iff : curvePoint? bs = some key ↔
    Secp256k1.isOnCurve key.x key.y = true ∧ ∃ form, bs = point form key := by
  constructor
  · intro h
    cases bs with
    | nil => cases h
    | cons mark body =>
      by_cases hmark : mark = 0x02 ∨ mark = 0x03
      · have hshort := ((curvePoint?_short_iff hmark).mp h).2
        have hcurve := PublicKey.isOnCurve_of_toShort hshort
        rw [PublicKey.toShort_eq hcurve, Except.ok.injEq] at hshort
        exact ⟨hcurve, .short, hshort.symm⟩
      · obtain ⟨rfl, hcurve, hlong⟩ := (curvePoint?_long_iff hmark).mp h
        refine ⟨hcurve, ?_⟩
        simp only [isLongMark, Bool.or_eq_true, Bool.and_eq_true, beq_iff_eq] at hlong
        rcases hlong with (rfl | ⟨rfl, heven⟩) | ⟨rfl, hodd⟩
        · exact ⟨.long, rfl⟩
        · exact ⟨.mixed, by rw [point, if_neg (by omega)]⟩
        · exact ⟨.mixed, by rw [point, if_pos hodd]⟩
  · intro ⟨hcurve, form, hbs⟩
    cases form with
    | short =>
      rw [hbs, point, curvePoint?_short_iff key.parityMark_cases]
      exact ⟨Bytes.length_ofNat _ _, PublicKey.toShort_eq hcurve⟩
    | long =>
      rw [hbs, point, PublicKey.toLong, curvePoint?_long_iff (by decide)]
      exact ⟨rfl, hcurve, rfl⟩
    | mixed =>
      rw [hbs, point]
      split
      · next hodd =>
        rw [curvePoint?_long_iff (by decide)]
        exact ⟨rfl, hcurve, by simp [isLongMark, hodd]⟩
      · next heven =>
        rw [curvePoint?_long_iff (by decide)]
        exact ⟨rfl, hcurve, by simp [isLongMark]; omega⟩

/-! ## The algorithm -/

/-- The identifiers of the algorithm and of the curve. -/
def identifier : Bytes :=
  element .objectId (ObjectId.content Algorithm.ecId) ++
    element .objectId (ObjectId.content Algorithm.secp256k1Id)

theorem identifier_eq : identifier = [
    0x06, 0x07, 0x2a, 0x86, 0x48, 0xce, 0x3d, 0x02, 0x01,
    0x06, 0x05, 0x2b, 0x81, 0x04, 0x00, 0x0a] := by
  decide +kernel

/-- The other curves are told by their names or their domains, and this one is not among them. -/
theorem getD_otherCurve_ne (curve? : Option NamedCurve) :
    (curve?.map Algorithm.otherCurve).getD .unknown ≠ .secp256k1 := by
  cases curve? <;> simp

/-- The curve is told by its name only. -/
theorem eq_of_ofCurve? {parameters : Bytes} (h : Algorithm.ofCurve? parameters = some .secp256k1) :
    parameters = element .objectId (ObjectId.content Algorithm.secp256k1Id) := by
  unfold Algorithm.ofCurve? at h
  cases hname : only? .objectId parameters with
  | some encoded =>
    rw [hname] at h
    obtain ⟨id, hid, hchosen⟩ := Option.map_eq_some_iff.mp h
    split at hchosen
    · next hthis =>
      obtain rfl := ObjectId.eq_content_of_ofContent? hid
      exact hthis ▸ eq_element_of_only? hname (by rw [hthis]; decide +kernel)
    · exact absurd hchosen (getD_otherCurve_ne _)
  | none =>
    rw [hname] at h
    cases hdomain : only? .sequence parameters with
    | some encoded =>
      rw [hdomain] at h
      obtain ⟨domain, -, hchosen⟩ := Option.map_eq_some_iff.mp h
      exact absurd hchosen (getD_otherCurve_ne _)
    | none =>
      rw [hdomain] at h
      dsimp only at h
      split at h <;> cases h

/-- Both identifiers are told by their only encodings. -/
theorem eq_identifier_of_ofContent? (h : Algorithm.ofContent? content = some .secp256k1) :
    content = identifier := by
  unfold Algorithm.ofContent? at h
  obtain ⟨⟨encoded, parameters⟩, helement, hread⟩ := Option.bind_eq_some_iff.mp h
  obtain ⟨id, hid, hchosen⟩ := Option.bind_eq_some_iff.mp hread
  obtain rfl := ObjectId.eq_content_of_ofContent? hid
  dsimp only at hchosen
  by_cases hec : id = Algorithm.ecId
  · rw [if_pos hec] at hchosen
    have hshort : (ObjectId.content id).length < 128 := by
      rw [hec]
      decide +kernel
    rw [eq_element_append_of_element? helement hshort, hec, eq_of_ofCurve? hchosen]
    rfl
  -- Every other algorithm is told as itself.
  · rw [if_neg hec] at hchosen
    repeat' split at hchosen
    all_goals cases hchosen

theorem ofContent?_identifier : Algorithm.ofContent? identifier = some .secp256k1 := by
  rw [identifier_eq]
  rfl

/-! ## Keys -/

/-- A key of secp256k1 with its algorithm. -/
def keyInfo (form : PointForm) (key : PublicKey) : Bytes :=
  element .sequence (element .sequence identifier ++ element .bitString (0x00 :: point form key))

theorem key?_eq_secp256k1_iff {algorithm : Algorithm} :
    algorithm.key? bs = some (.secp256k1 key) ↔
      algorithm = .secp256k1 ∧ curvePoint? bs = some key := by
  unfold Algorithm.key?
  cases algorithm <;> simp

theorem octets?_eq_some_iff : octets? bs = some content ↔ bs = 0x00 :: content := by
  unfold octets?
  split
  · simp
  · next hother =>
    refine ⟨fun h => ?_, fun h => absurd h (hother content)⟩
    cases h

theorem length_identifier : identifier.length = 16 := by
  rw [identifier_eq]
  rfl

/-- All contents are so short that their length stands in one byte. -/
theorem length_body_lt (form : PointForm) (key : PublicKey) :
    (element .sequence identifier ++ element .bitString (0x00 :: point form key)).length < 128 := by
  have hpoint := length_point_le form key
  rw [List.length_append, length_element, length_element, length_identifier, List.length_cons]
  omega

theorem keyInfo?_keyInfo (form : PointForm) (h : Secp256k1.isOnCurve key.x key.y = true) :
    keyInfo? (keyInfo form key) = some (.secp256k1 key) := by
  have hpoint := length_point_le form key
  have hbits : (0x00 :: point form key : Bytes).length < 128 := by
    rw [List.length_cons]
    omega
  have hidentifier : identifier.length < 128 := by
    rw [length_identifier]
    decide
  have hkey : Algorithm.secp256k1.key? (point form key) = some (.secp256k1 key) :=
    key?_eq_secp256k1_iff.mpr ⟨rfl, curvePoint?_eq_some_iff.mpr ⟨h, form, rfl⟩⟩
  rw [keyInfo?, keyInfo, only?_element .sequence (length_body_lt form key)]
  simp only [Option.bind_eq_bind, Option.bind_some, element?_element hidentifier,
    ofContent?_identifier, only?_element .bitString hbits, octets?, hkey]

theorem exists_keyInfo_of_keyInfo? (h : keyInfo? bs = some (.secp256k1 key)) :
    Secp256k1.isOnCurve key.x key.y = true ∧ ∃ form, bs = keyInfo form key := by
  unfold keyInfo? at h
  obtain ⟨body, hbody, hinner⟩ := Option.bind_eq_some_iff.mp h
  obtain ⟨⟨first, second⟩, hfirst, hbehind⟩ := Option.bind_eq_some_iff.mp hinner
  obtain ⟨algorithm, halgorithm, hrest⟩ := Option.bind_eq_some_iff.mp hbehind
  obtain ⟨bits, hbits, hlast⟩ := Option.bind_eq_some_iff.mp hrest
  obtain ⟨octets, hoctets, hkey⟩ := Option.bind_eq_some_iff.mp hlast
  obtain ⟨rfl, hpoint⟩ := key?_eq_secp256k1_iff.mp hkey
  obtain ⟨hcurve, form, rfl⟩ := curvePoint?_eq_some_iff.mp hpoint
  -- From the point outwards, every content is known, and with it the element around it.
  have hlen := length_point_le form key
  obtain rfl := octets?_eq_some_iff.mp hoctets
  obtain rfl := eq_identifier_of_ofContent? halgorithm
  have hsecond : second = element .bitString (0x00 :: point form key) := by
    refine eq_element_of_only? hbits ?_
    rw [List.length_cons]
    omega
  have hcontent : body = element .sequence identifier ++ second := by
    refine eq_element_append_of_element? hfirst ?_
    rw [length_identifier]
    decide
  rw [hsecond] at hcontent
  refine ⟨hcurve, form, eq_element_of_only? ?_ (length_body_lt form key)⟩
  rw [← hcontent]
  exact hbody

/-! ## The result -/

/-- Bytes are read as a key exactly if the key is on the curve and they are what it is written as,
in one of three forms. -/
theorem publicKey_eq_ok_iff : publicKey bs = .ok key ↔
    Secp256k1.isOnCurve key.x key.y = true ∧ ∃ form, bs = keyInfo form key := by
  constructor
  · intro h
    unfold publicKey at h
    split at h
    · next found hfound =>
      obtain rfl := Except.ok.inj h
      exact exists_keyInfo_of_keyInfo? hfound
    · cases h
    · cases h
    · split at h <;> cases h
  · intro ⟨hcurve, form, hbs⟩
    rw [publicKey, hbs, keyInfo?_keyInfo form hcurve]

/-- Bytes that are refused for any reason but an unknown algorithm are blamed on the key. -/
theorem exists_signing_of_publicKey {e : Error} (h : publicKey bs = .error e)
    (hread : keyInfo? bs ≠ some .unknown) : ∃ cause, e = .signing cause := by
  unfold publicKey at h
  split at h
  · cases h
  · exact ⟨_, (Except.error.inj h).symm⟩
  · next hunknown => exact absurd hunknown hread
  · split at h
    · exact ⟨_, (Except.error.inj h).symm⟩
    · exact ⟨_, (Except.error.inj h).symm⟩

end MetaTx.Der
