import Mathlib.Algebra.BigOperators.Group.List.Basic
import Mathlib.Data.List.Induction
import MetaTx.Bytes.Bech32

/-!
# Bits in groups of other widths

Bytes and groups of five bits are two ways to cut one row of bits. The groups have less than one of
them more than the bytes, and what they have more is zero. This one equation is what cutting bytes
into groups and putting groups together come to, so each undoes the other.
-/

namespace MetaTx.Bech32

/-! ## Bits of a number -/

@[simp] theorem length_bits (width n : Nat) : (bits width n).length = width := by
  simp [bits]

theorem bits_succ (width n : Nat) : bits (width + 1) n = bits width (n / 2) ++ [n.testBit 0] := by
  simp [bits, List.range_succ_eq_map, Nat.testBit_succ, Function.comp_def]

theorem ofBits_concat (bs : List Bool) (b : Bool) : ofBits (bs ++ [b]) = 2 * ofBits bs + b.toNat := by
  simp [ofBits]

theorem ofBits_bits (width n : Nat) : ofBits (bits width n) = n % 2 ^ width := by
  induction width generalizing n with
  | zero => simp [bits, ofBits, Nat.mod_one]
  | succ width ih =>
    rw [bits_succ, ofBits_concat, ih, Nat.testBit_zero, Nat.pow_succ', Nat.mod_mul]
    rcases Nat.mod_two_eq_zero_or_one n with h | h <;> simp [h, Nat.add_comm]

theorem ofBits_lt (bs : List Bool) : ofBits bs < 2 ^ bs.length := by
  induction bs using List.reverseRecOn with
  | nil => exact Nat.one_pos
  | append_singleton bs b ih =>
    have hb := b.toNat_lt
    rw [ofBits_concat, List.length_append, List.length_singleton, Nat.pow_succ]
    omega

theorem bits_ofBits (bs : List Bool) : bits bs.length (ofBits bs) = bs := by
  induction bs using List.reverseRecOn with
  | nil => rfl
  | append_singleton bs b ih =>
    have hhalf : (2 * ofBits bs + b.toNat) / 2 = ofBits bs := by
      have hb := b.toNat_lt
      omega
    have hlow : (2 * ofBits bs + b.toNat).testBit 0 = b := by
      cases b <;> simp [Nat.testBit_zero, Nat.add_mod]
    rw [List.length_append, List.length_singleton, ofBits_concat, bits_succ, hhalf, hlow, ih]

theorem bits_ofBits_of_length {width : Nat} {bs : List Bool} (h : bs.length = width) :
    bits width (ofBits bs) = bs := by
  subst h
  exact bits_ofBits bs

/-! ## Groups -/

/-- Groups are found again in what they are joined to. -/
theorem groups_flatten {width n : Nat} (hpos : 0 < width) {gs : List (List Bool)}
    (hlengths : ∀ g ∈ gs, g.length = width) (hcount : gs.length ≤ n) :
    groups width n gs.flatten = gs := by
  induction gs generalizing n with
  | nil => cases n <;> rfl
  | cons g gs ih =>
    obtain ⟨hg, hgs⟩ := List.forall_mem_cons.mp hlengths
    cases n with
    | zero => exact absurd hcount (Nat.not_succ_le_zero _)
    | succ n =>
      have hrest := ih hgs (Nat.le_of_succ_le_succ hcount)
      cases g with
      | nil => exact absurd hg (Nat.ne_of_lt hpos)
      | cons b g =>
        have hcut : groups width (n + 1) ((b :: g) ++ gs.flatten) =
            ((b :: g) ++ gs.flatten).take width ::
              groups width n (((b :: g) ++ gs.flatten).drop width) := rfl
        rw [List.flatten_cons, hcut, List.take_left' hg, List.drop_left' hg, hrest]

theorem exists_groups {width count : Nat} {bs : List Bool} (h : bs.length = width * count) :
    ∃ gs : List (List Bool), bs = gs.flatten ∧ (∀ g ∈ gs, g.length = width) ∧ gs.length = count := by
  induction count generalizing bs with
  | zero => exact ⟨[], List.eq_nil_of_length_eq_zero h, by simp, rfl⟩
  | succ count ih =>
    rw [Nat.mul_succ] at h
    have hdrop : (bs.drop width).length = width * count := by
      rw [List.length_drop]
      omega
    obtain ⟨gs, hgs, hlengths, hcount⟩ := ih hdrop
    refine ⟨bs.take width :: gs, ?_, ?_, by rw [List.length_cons, hcount]⟩
    · rw [List.flatten_cons, ← hgs, List.take_append_drop]
    · refine List.forall_mem_cons.mpr ⟨?_, hlengths⟩
      rw [List.length_take]
      omega

theorem length_flatMap_bits {α : Type} (width : Nat) (f : α → Nat) (as : List α) :
    (as.flatMap fun a => bits width (f a)).length = width * as.length := by
  simp [List.length_flatMap, Nat.mul_comm width]

/-- Numbers are found again in the groups of their bits. -/
theorem map_groups_flatMap {α : Type} {width n : Nat} (hpos : 0 < width) (f : α → Nat) {as : List α}
    (hcount : as.length ≤ n) :
    (groups width n (as.flatMap fun a => bits width (f a))).map ofBits =
      as.map fun a => f a % 2 ^ width := by
  have hlengths : ∀ g ∈ as.map fun a => bits width (f a), g.length = width := by
    intro g hg
    obtain ⟨a, -, rfl⟩ := List.mem_map.mp hg
    exact length_bits width (f a)
  have hgroups : groups width n (as.map fun a => bits width (f a)).flatten =
      as.map fun a => bits width (f a) :=
    groups_flatten hpos hlengths (by rwa [List.length_map])
  rw [List.flatMap_def, hgroups, List.map_map]
  exact List.map_congr_left fun a _ => ofBits_bits width (f a)

/-! ## Bytes and groups of five bits -/

/-- The bits of bytes in a row. -/
def bitsOf (bs : Bytes) : List Bool := bs.flatMap fun b => bits 8 b.toNat

theorem length_bitsOf (bs : Bytes) : (bitsOf bs).length = 8 * bs.length :=
  length_flatMap_bits 8 UInt8.toNat bs

theorem length_symbols (ds : List Nat) : (ds.flatMap (bits 5)).length = 5 * ds.length :=
  length_flatMap_bits 5 id ds

/-- Groups of five bits hold bytes, with less than a group behind them, which is zero. -/
def Holds (ds : List Nat) (bs : Bytes) : Prop :=
  ∃ gap < 5, ds.flatMap (bits 5) = bitsOf bs ++ List.replicate gap false

theorem length_of_flatMap {ds : List Nat} {bs : Bytes} {gap : Nat}
    (h : ds.flatMap (bits 5) = bitsOf bs ++ List.replicate gap false) :
    5 * ds.length = 8 * bs.length + gap := by
  rw [← length_symbols, h, List.length_append, length_bitsOf, List.length_replicate]

theorem exists_toGroups (bs : Bytes) :
    ∃ gs : List (List Bool), toGroups bs = gs.map ofBits ∧ (∀ g ∈ gs, g.length = 5) ∧
      gs.flatten = bitsOf bs ++ List.replicate ((5 - (bitsOf bs).length % 5) % 5) false := by
  have hlength : (bitsOf bs ++ List.replicate ((5 - (bitsOf bs).length % 5) % 5) false).length =
      5 * ((8 * bs.length + 4) / 5) := by
    rw [List.length_append, List.length_replicate, length_bitsOf]
    omega
  obtain ⟨gs, hpadded, hlengths, hcount⟩ := exists_groups hlength
  have hgroups : groups 5 gs.flatten.length gs.flatten = gs :=
    groups_flatten (by decide) hlengths (by rw [← hpadded, hlength]; omega)
  refine ⟨gs, ?_, hlengths, hpadded.symm⟩
  rw [← hpadded] at hgroups
  rw [← hgroups]
  rfl

theorem holds_toGroups (bs : Bytes) : Holds (toGroups bs) bs := by
  obtain ⟨gs, hds, hlengths, hflatten⟩ := exists_toGroups bs
  refine ⟨(5 - (bitsOf bs).length % 5) % 5, Nat.mod_lt _ (by decide), ?_⟩
  rw [hds, ← hflatten, List.flatMap_map, List.flatMap_def,
    List.map_congr_left fun g hg => bits_ofBits_of_length (hlengths g hg), List.map_id']

theorem lt_of_mem_toGroups {bs : Bytes} {d : Nat} (h : d ∈ toGroups bs) : d < 32 := by
  obtain ⟨gs, hds, hlengths, -⟩ := exists_toGroups bs
  obtain ⟨g, hg, rfl⟩ := List.mem_map.mp (hds ▸ h)
  have hlt := ofBits_lt g
  rwa [hlengths g hg] at hlt

/-- Groups that hold bytes are those into which the bytes are cut. -/
theorem Holds.toGroups_eq {ds : List Nat} {bs : Bytes} (h : Holds ds bs)
    (hlow : ∀ d ∈ ds, d < 32) : toGroups bs = ds := by
  obtain ⟨gap, hgap, hbits⟩ := h
  have hlength := length_of_flatMap hbits
  -- Less than a group is missing to a multiple of five, so the gap is the one that is filled.
  have hown : (5 - (bitsOf bs).length % 5) % 5 = gap := by
    rw [length_bitsOf]
    omega
  have hgroups : toGroups bs =
      (groups 5 (ds.flatMap (bits 5)).length (ds.flatMap (bits 5))).map ofBits := by
    rw [hbits, ← hown]
    rfl
  have hcount : ds.length ≤ (ds.flatMap (bits 5)).length := by
    rw [length_symbols]
    omega
  rw [hgroups]
  refine (map_groups_flatMap (by decide) id hcount).trans ?_
  exact (List.map_congr_left fun d hd => Nat.mod_eq_of_lt (hlow d hd)).trans (List.map_id' ds)

/-- Bytes are put together from the groups of their bits. -/
theorem map_groups_bitsOf {bs : Bytes} {n : Nat} (hcount : bs.length ≤ n) :
    (groups 8 n (bitsOf bs)).map (fun g => (ofBits g).toUInt8) = bs := by
  have hnumbers := map_groups_flatMap (by decide : 0 < 8) UInt8.toNat hcount
  have hbytes := congrArg (List.map Nat.toUInt8) hnumbers
  rw [List.map_map, List.map_map] at hbytes
  refine hbytes.trans ((List.map_congr_left fun b _ => ?_).trans (List.map_id' bs))
  exact (congrArg Nat.toUInt8 (Nat.mod_eq_of_lt b.toNat_lt)).trans (UInt8.ofNat_toNat)

/-- Whole groups of eight bits are the bits of the bytes that are put together from them. -/
theorem bitsOf_map_groups {count : Nat} {bs : List Bool} (h : bs.length = 8 * count) :
    bitsOf ((groups 8 (8 * count) bs).map fun g => (ofBits g).toUInt8) = bs := by
  obtain ⟨gs, rfl, hlengths, hcount⟩ := exists_groups h
  have hbyte : ∀ g ∈ gs, bits 8 (ofBits g).toUInt8.toNat = g := by
    intro g hg
    have hlt := ofBits_lt g
    rw [hlengths g hg] at hlt
    rw [Nat.toUInt8, UInt8.toNat_ofNat', Nat.mod_eq_of_lt hlt, bits_ofBits_of_length (hlengths g hg)]
  rw [groups_flatten (by decide) hlengths (by omega), bitsOf, List.flatMap_map, List.flatMap_def,
    List.map_congr_left hbyte, List.map_id']

theorem ofGroups?_eq_some_iff {ds : List Nat} {bs : Bytes} :
    ofGroups? ds = some bs ↔ Holds ds bs := by
  unfold ofGroups? Holds
  generalize ds.flatMap (bits 5) = all
  constructor
  · intro h
    obtain ⟨hrest, h⟩ := Option.ite_none_right_eq_some.mp h
    obtain ⟨hshort, hzero⟩ := Bool.and_eq_true_iff.mp hrest
    rw [Nat.mul_comm _ 8] at hshort hzero h
    have hwhole : (all.take (8 * (all.length / 8))).length = 8 * (all.length / 8) := by
      rw [List.length_take]
      omega
    have hgap : all.drop (8 * (all.length / 8)) =
        List.replicate (all.drop (8 * (all.length / 8))).length false := by
      refine List.eq_replicate_iff.mpr ⟨rfl, fun b hb => ?_⟩
      simpa using List.all_eq_true.mp hzero b hb
    refine ⟨_, of_decide_eq_true hshort, ?_⟩
    rw [← hgap, ← Option.some.inj h, bitsOf_map_groups hwhole, List.take_append_drop]
  · rintro ⟨gap, hgap, rfl⟩
    have hwhole : (bitsOf bs ++ List.replicate gap false).length / 8 * 8 = (bitsOf bs).length := by
      rw [List.length_append, length_bitsOf, List.length_replicate]
      omega
    refine Option.ite_none_right_eq_some.mpr ⟨?_, ?_⟩
    · rw [hwhole, List.drop_left, List.length_replicate, decide_eq_true hgap, List.all_replicate]
      simp
    · rw [hwhole, List.take_left, map_groups_bitsOf (by rw [length_bitsOf]; omega)]

end MetaTx.Bech32
