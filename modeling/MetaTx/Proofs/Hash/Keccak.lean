import Mathlib.Tactic.IntervalCases
import MetaTx.Hash.Keccak

/-!
# The sponge on plain numbers

The hash is made of words of 64 bits, with a proof at each lane that it is there. Below the same steps
are taken with lists of natural numbers, which evaluate well. After every round both states hold the
same numbers, so both hashes are the same. Hashes of what is written out are evaluated on plain
numbers.
-/

namespace MetaTx.Keccak.Plain

def rotl (x n : Nat) : Nat := x <<< n % 2 ^ 64 ||| x >>> ((64 - n) % 64)

def chi (x y z : Nat) : Nat := x ^^^ ((2 ^ 64 - 1 - y) &&& z)

/-- A row of the next state. -/
def row (constant b0 b1 b2 b3 b4 : Nat) : List Nat :=
  [chi b0 b1 b2 ^^^ constant, chi b1 b2 b3, chi b2 b3 b4, chi b3 b4 b0, chi b4 b0 b1]

def round : List Nat → Nat → List Nat
  | [a0, a1, a2, a3, a4, a5, a6, a7, a8, a9, a10, a11, a12, a13, a14, a15, a16, a17, a18, a19,
      a20, a21, a22, a23, a24], constant =>
    let c0 := a0 ^^^ a5 ^^^ a10 ^^^ a15 ^^^ a20
    let c1 := a1 ^^^ a6 ^^^ a11 ^^^ a16 ^^^ a21
    let c2 := a2 ^^^ a7 ^^^ a12 ^^^ a17 ^^^ a22
    let c3 := a3 ^^^ a8 ^^^ a13 ^^^ a18 ^^^ a23
    let c4 := a4 ^^^ a9 ^^^ a14 ^^^ a19 ^^^ a24
    let d0 := c4 ^^^ rotl c1 1
    let d1 := c0 ^^^ rotl c2 1
    let d2 := c1 ^^^ rotl c3 1
    let d3 := c2 ^^^ rotl c4 1
    let d4 := c3 ^^^ rotl c0 1
    row constant (rotl (a0 ^^^ d0) 0) (rotl (a6 ^^^ d1) 44) (rotl (a12 ^^^ d2) 43)
        (rotl (a18 ^^^ d3) 21) (rotl (a24 ^^^ d4) 14) ++
      row 0 (rotl (a3 ^^^ d3) 28) (rotl (a9 ^^^ d4) 20) (rotl (a10 ^^^ d0) 3)
        (rotl (a16 ^^^ d1) 45) (rotl (a22 ^^^ d2) 61) ++
      row 0 (rotl (a1 ^^^ d1) 1) (rotl (a7 ^^^ d2) 6) (rotl (a13 ^^^ d3) 25)
        (rotl (a19 ^^^ d4) 8) (rotl (a20 ^^^ d0) 18) ++
      row 0 (rotl (a4 ^^^ d4) 27) (rotl (a5 ^^^ d0) 36) (rotl (a11 ^^^ d1) 10)
        (rotl (a17 ^^^ d2) 15) (rotl (a23 ^^^ d3) 56) ++
      row 0 (rotl (a2 ^^^ d2) 62) (rotl (a8 ^^^ d3) 55) (rotl (a14 ^^^ d4) 39)
        (rotl (a15 ^^^ d0) 41) (rotl (a21 ^^^ d1) 2)
  | a, _ => a

def permute (a : List Nat) : List Nat := (roundConstants.map UInt64.toNat).foldl round a

/-- Adds words to the first lanes. -/
def add : List Nat → List UInt64 → List Nat
  | x :: a, w :: ws => (x ^^^ w.toNat) :: add a ws
  | a, _ => a

def absorb : Nat → List Nat → Bytes → List Nat
  | 0, a, _ => a
  | n + 1, a, bs => absorb n (permute (add a (words (bs.take rate)))) (bs.drop rate)

/-- The hash of a message, on plain numbers. -/
def hash (message : Bytes) : Bytes :=
  let padded := message ++ padding message.length
  let lanes := absorb (padded.length / rate) (List.replicate 25 0) padded
  (lanes.take 4).flatMap fun x => laneBytes (.ofNat x)

/-! ## Agreement -/

/-- The numbers of the lanes. -/
def numbers (a : Lanes) : List Nat := a.toList.map UInt64.toNat

theorem toNat_rotl {x n : UInt64} (h : n.toNat < 64) :
    (Keccak.rotl x n).toNat = rotl x.toNat n.toNat := by
  have hsub : (64 - n).toNat = 64 - n.toNat :=
    UInt64.toNat_sub_of_le _ _ (UInt64.le_iff_toNat_le.mpr (Nat.le_of_lt h))
  rw [Keccak.rotl, rotl, UInt64.toNat_or, UInt64.toNat_shiftLeft, UInt64.toNat_shiftRight, hsub,
    Nat.mod_eq_of_lt h]

section Unrolling

variable {α : Type}

theorem ofFn_columns (f : Fin 5 → α) : Vector.ofFn f = #v[f ⟨0, by decide⟩, f ⟨1, by decide⟩,
    f ⟨2, by decide⟩, f ⟨3, by decide⟩, f ⟨4, by decide⟩] := rfl

theorem ofFn_lanes (f : Fin 25 → α) : Vector.ofFn f = #v[
    f ⟨0, by decide⟩, f ⟨1, by decide⟩, f ⟨2, by decide⟩, f ⟨3, by decide⟩, f ⟨4, by decide⟩,
    f ⟨5, by decide⟩, f ⟨6, by decide⟩, f ⟨7, by decide⟩, f ⟨8, by decide⟩, f ⟨9, by decide⟩,
    f ⟨10, by decide⟩, f ⟨11, by decide⟩, f ⟨12, by decide⟩, f ⟨13, by decide⟩,
    f ⟨14, by decide⟩, f ⟨15, by decide⟩, f ⟨16, by decide⟩, f ⟨17, by decide⟩,
    f ⟨18, by decide⟩, f ⟨19, by decide⟩, f ⟨20, by decide⟩, f ⟨21, by decide⟩,
    f ⟨22, by decide⟩, f ⟨23, by decide⟩, f ⟨24, by decide⟩] := by
  ext i h
  rw [Vector.getElem_ofFn]
  interval_cases i <;> rfl

end Unrolling

theorem numbers_round (a : Lanes) (constant : UInt64) :
    numbers (Keccak.round a constant) = round (numbers a) constant.toNat := by
  obtain ⟨⟨l⟩, hl⟩ := a
  match l, hl with
  | [a0, a1, a2, a3, a4, a5, a6, a7, a8, a9, a10, a11, a12, a13, a14, a15, a16, a17, a18, a19, a20,
      a21, a22, a23, a24], _ =>
    simp [numbers, Keccak.round, Keccak.chi, Keccak.rhoPi, Keccak.theta, Keccak.rotations,
      ofFn_columns, ofFn_lanes, toNat_rotl, round, row, chi]

theorem numbers_permute (a : Lanes) : numbers (Keccak.permute a) = permute (numbers a) := by
  rw [Keccak.permute, permute, List.foldl_map]
  induction roundConstants generalizing a with
  | nil => rfl
  | cons constant rest ih => rw [List.foldl_cons, List.foldl_cons, ih, numbers_round]

theorem getElem?_add (l : List Nat) (ws : List UInt64) (i : Nat) :
    (add l ws)[i]? = l[i]?.map (· ^^^ (ws.getD i 0).toNat) := by
  induction l generalizing ws i with
  | nil => cases ws <;> simp [add]
  | cons x l ih =>
    cases ws with
    | nil => simp [add]
    | cons w ws =>
      cases i with
      | zero => simp [add]
      | succ i => simpa [add] using ih ws i

theorem numbers_absorbBlock (a : Lanes) (block : Bytes) :
    numbers (Keccak.absorbBlock a block) = permute (add (numbers a) (words block)) := by
  have hadd : numbers (Vector.ofFn fun i => a[i] ^^^ (words block).toArray.getD i.val 0) =
      add (numbers a) (words block) := by
    apply List.ext_getElem?
    intro i
    rw [getElem?_add]
    rcases Nat.lt_or_ge i 25 with h | h
    · simp [numbers, h]
    · simp [numbers, h]
  rw [Keccak.absorbBlock, numbers_permute, hadd]

theorem numbers_absorb (n : Nat) (a : Lanes) (bs : Bytes) :
    numbers (Keccak.absorb n a bs) = absorb n (numbers a) bs := by
  induction n generalizing a bs with
  | zero => rfl
  | succ n ih => rw [Keccak.absorb, ih, numbers_absorbBlock, absorb]

theorem digest_eq (a : Lanes) :
    Keccak.digest a = ((numbers a).take 4).flatMap fun x => laneBytes (.ofNat x) := by
  obtain ⟨⟨l⟩, hl⟩ := a
  match l, hl with
  | b0 :: b1 :: b2 :: b3 :: rest, _ => simp [Keccak.digest, numbers]

theorem keccak_eq (message : Bytes) : keccak message = hash message := by
  rw [keccak, Keccak.hash, digest_eq, numbers_absorb]
  rfl

end MetaTx.Keccak.Plain
