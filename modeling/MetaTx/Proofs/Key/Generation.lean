import Mathlib.Data.Nat.Find
import MetaTx.Proofs.Key.Private

/-!
# Keys from a random source

A source is a sequence of draws, and generation stops at the first one that decides. A draw leaves
it undecided only if it is of 32 bytes with a scalar out of range. After eight such draws there is
no key. Nothing behind the last draw made has a say in the outcome.
-/

namespace MetaTx.PrivateKey

variable {source : Nat → Draw} {outcome : Except Error PrivateKey} {k draws : Nat}

/-! ## One draw -/

/-- A draw of the right length whose scalar is out of range. -/
def Draw.IsMiss (draw : Draw) : Prop :=
  ∃ raw, draw = .bytes raw ∧ raw.length = 32 ∧
    ¬(0 < Bytes.toNat raw ∧ Bytes.toNat raw < Secp256k1.n)

/-- What any other draw decides. -/
inductive Draw.Decides : Draw → Except Error PrivateKey → Prop
  | key (key : PrivateKey) : Decides (.bytes key.toBytes) (.ok key)
  | wrongLength (raw : Bytes) (h : raw.length ≠ 32) :
    Decides (.bytes raw) (.error (.randomSource (.wrongLength raw.length)))
  | failed (reason : String) : Decides (.failed reason) (.error (.randomSource (.failed reason)))

theorem Draw.isMiss_or_decides (draw : Draw) : draw.IsMiss ∨ ∃ outcome, draw.Decides outcome := by
  cases draw with
  | failed reason => exact .inr ⟨_, .failed reason⟩
  | bytes raw =>
    by_cases hlen : raw.length = 32
    · by_cases hrange : 0 < Bytes.toNat raw ∧ Bytes.toNat raw < Secp256k1.n
      · have hraw : (PrivateKey.mk (Bytes.toNat raw) hrange.1 hrange.2).toBytes = raw := by
          show Bytes.ofNat 32 (Bytes.toNat raw) = raw
          rw [← hlen, Bytes.ofNat_toNat]
        exact .inr ⟨_, hraw ▸ Draw.Decides.key _⟩
      · exact .inl ⟨raw, rfl, hlen, hrange⟩
    · exact .inr ⟨_, .wrongLength raw hlen⟩

theorem ofDraw_of_isMiss {draw : Draw} (h : draw.IsMiss) : ofDraw draw = none := by
  obtain ⟨raw, rfl, hlen, hrange⟩ := h
  have hwidth : raw.length = width := hlen
  have hscalar : ofScalar? (Bytes.toNat raw) = none := dif_neg hrange
  rw [ofDraw, if_pos hwidth, hscalar, Option.map_none]

theorem ofDraw_of_decides {draw : Draw} (h : draw.Decides outcome) :
    ofDraw draw = some outcome := by
  cases h with
  | key key =>
    rw [ofDraw, if_pos key.length_toBytes, toNat_toBytes, ofScalar?_scalar, Option.map_some]
  | wrongLength raw hlen => exact if_neg hlen
  | failed reason => rfl

/-- A key that is drawn is the one that its bytes are read as. -/
theorem Draw.decides_ok_iff {draw : Draw} {key : PrivateKey} : draw.Decides (.ok key) ↔
    ∃ raw, draw = .bytes raw ∧ raw.length = 32 ∧
      (0 < Bytes.toNat raw ∧ Bytes.toNat raw < Secp256k1.n) ∧
      ofBytes raw = .ok key ∧ key.toBytes = raw := by
  constructor
  · intro h
    cases h with
    | key key =>
      have hrange : 0 < Bytes.toNat key.toBytes ∧ Bytes.toNat key.toBytes < Secp256k1.n := by
        rw [toNat_toBytes]
        exact ⟨key.pos, key.lt_order⟩
      exact ⟨_, rfl, key.length_toBytes, hrange, ofBytes_toBytes key, rfl⟩
  · intro ⟨raw, hdraw, _, _, _, hraw⟩
    rw [hdraw, ← hraw]
    exact .key key

theorem Draw.exists_decides_error_iff {draw : Draw} :
    (∃ cause, draw.Decides (.error (.randomSource cause))) ↔
      (∃ reason, draw = .failed reason) ∨ ∃ raw, draw = .bytes raw ∧ raw.length ≠ 32 := by
  constructor
  · intro ⟨cause, h⟩
    cases h with
    | wrongLength raw hlen => exact .inr ⟨raw, rfl, hlen⟩
    | failed reason => exact .inl ⟨reason, rfl⟩
  · rintro (⟨reason, rfl⟩ | ⟨raw, rfl, hlen⟩)
    · exact ⟨_, .failed reason⟩
    · exact ⟨_, .wrongLength raw hlen⟩

theorem Draw.Decides.exists_cause {draw : Draw} (h : draw.Decides outcome) :
    (∃ key, outcome = .ok key) ∨ ∃ cause, outcome = .error (.randomSource cause) := by
  cases h with
  | key key => exact .inl ⟨key, rfl⟩
  | wrongLength raw _ => exact .inr ⟨_, rfl⟩
  | failed reason => exact .inr ⟨_, rfl⟩

/-! ## A run -/

/-- Misses are passed over one by one. -/
theorem generateFrom_of_isMiss (left : Nat) {i : Nat} (h : ∀ j < k, (source (i + j)).IsMiss) :
    generateFrom source (k + left) i = generateFrom source left (i + k) := by
  induction k generalizing i with
  | zero => rw [Nat.zero_add, Nat.add_zero]
  | succ k ih =>
    have hfirst : ofDraw (source i) = none := ofDraw_of_isMiss (h 0 (Nat.succ_pos k))
    have hrest : ∀ j < k, (source (i + 1 + j)).IsMiss := by
      intro j hj
      rw [Nat.add_assoc, Nat.add_comm 1]
      exact h (j + 1) (Nat.succ_lt_succ hj)
    rw [Nat.succ_add, generateFrom, hfirst]
    show generateFrom source (k + left) (i + 1) = _
    rw [ih hrest, Nat.add_assoc, Nat.add_comm 1]

/-- How generation from a source ends, and after how many draws. -/
inductive Ends (source : Nat → Draw) : Except Error PrivateKey → Nat → Prop
  | decided {outcome : Except Error PrivateKey} (k : Nat) (hk : k < maxDraws)
    (misses : ∀ j < k, (source j).IsMiss) (decides : (source k).Decides outcome) :
    Ends source outcome (k + 1)
  | exhausted (misses : ∀ j < maxDraws, (source j).IsMiss) :
    Ends source (.error (.randomSource .exhausted)) maxDraws

/-- One of the first draws decides, or none. -/
theorem exists_ends (source : Nat → Draw) : ∃ outcome draws, Ends source outcome draws := by
  classical
  by_cases hmisses : ∀ j < maxDraws, (source j).IsMiss
  · exact ⟨_, _, .exhausted hmisses⟩
  · have hhit : ∃ k, k < maxDraws ∧ ¬(source k).IsMiss := by
      simpa only [not_forall, exists_prop] using hmisses
    obtain ⟨hk, hhits⟩ := Nat.find_spec hhit
    obtain ⟨outcome, hdecides⟩ := (source (Nat.find hhit)).isMiss_or_decides.resolve_left hhits
    refine ⟨outcome, _, .decided _ hk ?_ hdecides⟩
    intro j hj
    by_contra hother
    exact Nat.find_min hhit hj ⟨Nat.lt_trans hj hk, hother⟩

theorem generate_of_ends (h : Ends source outcome draws) : generate source = (outcome, draws) := by
  cases h with
  | decided k hk misses decides =>
    obtain ⟨left, hleft⟩ : ∃ left, maxDraws = k + (left + 1) := ⟨maxDraws - k - 1, by omega⟩
    have hpassed : generateFrom source (k + (left + 1)) 0 = _ :=
      generateFrom_of_isMiss (left + 1) (by simpa only [Nat.zero_add] using misses)
    rw [generate, hleft, hpassed, Nat.zero_add, generateFrom, ofDraw_of_decides decides]
  | exhausted misses =>
    have hpassed : generateFrom source (maxDraws + 0) 0 = _ :=
      generateFrom_of_isMiss 0 (by simpa only [Nat.zero_add] using misses)
    exact hpassed

theorem generate_eq_iff : generate source = (outcome, draws) ↔ Ends source outcome draws := by
  refine ⟨fun h => ?_, generate_of_ends⟩
  obtain ⟨outcome', draws', hends⟩ := exists_ends source
  rw [generate_of_ends hends, Prod.mk.injEq] at h
  exact h.1 ▸ h.2 ▸ hends

theorem Ends.le_maxDraws (h : Ends source outcome draws) : draws ≤ maxDraws := by
  cases h with
  | decided k hk _ _ => exact hk
  | exhausted _ => exact Nat.le_refl _

/-- Only the draws that are made count. -/
theorem Ends.congr {other : Nat → Draw} (h : Ends source outcome draws)
    (hsame : ∀ j < draws, other j = source j) : Ends other outcome draws := by
  cases h with
  | decided k hk misses decides =>
    refine .decided k hk (fun j hj => ?_) ?_
    · rw [hsame j (Nat.lt_succ_of_lt hj)]
      exact misses j hj
    · rw [hsame k (Nat.lt_succ_self k)]
      exact decides
  | exhausted misses => exact .exhausted fun j hj => hsame j hj ▸ misses j hj

/-- Generation that gives no key blames the source. -/
theorem Ends.exists_cause (h : Ends source outcome draws) :
    (∃ key, outcome = .ok key) ∨ ∃ cause, outcome = .error (.randomSource cause) := by
  cases h with
  | decided _ _ _ decides => exact decides.exists_cause
  | exhausted _ => exact .inr ⟨_, rfl⟩

theorem ends_ok_iff {key : PrivateKey} : Ends source (.ok key) draws ↔
    ∃ k, draws = k + 1 ∧ k < maxDraws ∧ (∀ j < k, (source j).IsMiss) ∧
      (source k).Decides (.ok key) := by
  constructor
  · intro h
    cases h with
    | decided k hk misses decides => exact ⟨k, rfl, hk, misses, decides⟩
  · rintro ⟨k, rfl, hk, misses, decides⟩
    exact .decided k hk misses decides

theorem exists_ends_error_iff : (∃ cause, Ends source (.error (.randomSource cause)) draws) ↔
    (∃ k, draws = k + 1 ∧ k < maxDraws ∧ (∀ j < k, (source j).IsMiss) ∧
      ∃ cause, (source k).Decides (.error (.randomSource cause))) ∨
    draws = maxDraws ∧ ∀ j < maxDraws, (source j).IsMiss := by
  constructor
  · intro ⟨cause, h⟩
    cases h with
    | decided k hk misses decides => exact .inl ⟨k, rfl, hk, misses, cause, decides⟩
    | exhausted misses => exact .inr ⟨rfl, misses⟩
  · rintro (⟨k, rfl, hk, misses, cause, decides⟩ | ⟨rfl, misses⟩)
    · exact ⟨cause, .decided k hk misses decides⟩
    · exact ⟨_, .exhausted misses⟩

/-! ## The result -/

/-- **Generation from any source.** A key comes from the first draw of 32 bytes with a scalar in
range, if it is among the first eight and all draws before it have 32 bytes with a scalar out of
range. The key is the one that these bytes are read as, and it is written as them. Otherwise the
source is blamed. No draw is made behind the one that decides, so that draws further on may be
anything, and at most eight are made. -/
theorem generate_firstInRange (source : Nat → Draw) :
    (∀ key draws, generate source = (.ok key, draws) ↔ ∃ k raw, draws = k + 1 ∧ k < 8 ∧
      (∀ j < k, (source j).IsMiss) ∧ source k = .bytes raw ∧ raw.length = 32 ∧
      (0 < Bytes.toNat raw ∧ Bytes.toNat raw < Secp256k1.n) ∧
      ofBytes raw = .ok key ∧ key.toBytes = raw) ∧
    (∀ draws, (∃ cause, generate source = (.error (.randomSource cause), draws)) ↔
      (∃ k, draws = k + 1 ∧ k < 8 ∧ (∀ j < k, (source j).IsMiss) ∧
        ((∃ reason, source k = .failed reason) ∨ ∃ raw, source k = .bytes raw ∧ raw.length ≠ 32)) ∨
      draws = 8 ∧ ∀ j < 8, (source j).IsMiss) ∧
    ((∃ key, (generate source).1 = .ok key) ∨
      ∃ cause, (generate source).1 = .error (.randomSource cause)) ∧
    (generate source).2 ≤ 8 ∧
    ∀ other, (∀ j < (generate source).2, other j = source j) →
      generate other = generate source := by
  have hends : Ends source (generate source).1 (generate source).2 := generate_eq_iff.mp rfl
  refine ⟨fun key draws => ?_, fun draws => ?_, hends.exists_cause, hends.le_maxDraws, ?_⟩
  · simp only [generate_eq_iff, ends_ok_iff, Draw.decides_ok_iff, maxDraws, exists_and_left]
  · simp only [generate_eq_iff, exists_ends_error_iff, Draw.exists_decides_error_iff, maxDraws]
  · intro other hsame
    exact generate_of_ends (hends.congr hsame)

/-- Zero is passed over, and one is a key. -/
example : generate (fun i => .bytes (Bytes.ofNat 32 i)) = (.ok one, 2) := by
  cbv

end MetaTx.PrivateKey
