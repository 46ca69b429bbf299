import Mathlib.Data.List.GetD
import MetaTx.Cipher.Chain
import MetaTx.Proofs.Cipher.Aes128

/-!
# Messages are decrypted

Under the key and from the starting block with which a message was encrypted, the blocks come back
one by one, and what fills the last one tells how much of it there is.
-/

namespace MetaTx.Cipher

open Aes128 (Block)

/-! ## Blocks -/

theorem getElem_blockOf (bs : Bytes) {i : Nat} (hi : i < 16) : (blockOf bs)[i] = bs.getD i 0 := by
  simp only [blockOf, Vector.getElem_ofFn]

theorem blockOf_append (c : Block) (rest : Bytes) : blockOf (c.toList ++ rest) = c := by
  apply Vector.ext
  intro i hi
  have hlt : i < c.toList.length := by rwa [Vector.length_toList]
  rw [getElem_blockOf, List.getD_append _ _ _ _ hlt, List.getD_eq_getElem _ _ hlt,
    Vector.getElem_toList]

theorem blocks_append (n : Nat) (c : Block) (rest : Bytes) :
    blocks (n + 1) (c.toList ++ rest) = c :: blocks n rest := by
  have hdrop : (c.toList ++ rest).drop blockWidth = rest := List.drop_left' Vector.length_toList
  rw [blocks, blockOf_append, hdrop]

theorem toList_blockOf {bs : Bytes} (h : blockWidth ≤ bs.length) :
    (blockOf bs).toList = bs.take blockWidth := by
  apply List.ext_getElem
  · rw [Vector.length_toList, List.length_take, Nat.min_eq_left h]
    rfl
  · intro i hi _
    have hlt : i < bs.length := by
      rw [Vector.length_toList] at hi
      exact Nat.lt_of_lt_of_le hi h
    rw [Vector.getElem_toList, getElem_blockOf, List.getElem_take, List.getD_eq_getElem _ _ hlt]

theorem length_blocks (n : Nat) (bs : Bytes) : (blocks n bs).length = n := by
  induction n generalizing bs with
  | zero => rfl
  | succ n ih => rw [blocks, List.length_cons, ih]

theorem flatMap_blocks {n : Nat} {bs : Bytes} (h : bs.length = blockWidth * n) :
    (blocks n bs).flatMap Vector.toList = bs := by
  induction n generalizing bs with
  | zero => exact (List.eq_nil_of_length_eq_zero h).symm
  | succ n ih =>
    rw [Nat.mul_succ] at h
    have hdrop : (bs.drop blockWidth).length = blockWidth * n := by
      rw [List.length_drop]
      omega
    have hrest := ih hdrop
    rw [blocks, List.flatMap_cons, toList_blockOf (by omega), hrest, List.take_append_drop]

theorem length_encryptBlocks (key before : Block) (bs : List Block) :
    (encryptBlocks key before bs).length = blockWidth * bs.length := by
  induction bs generalizing before with
  | nil => rfl
  | cons b bs ih =>
    rw [encryptBlocks, List.length_append, Vector.length_toList, ih, List.length_cons, Nat.mul_succ,
      Nat.add_comm]
    rfl

/-- Each block was added to the cipher of the one before it, from which it is taken back. -/
theorem decryptBlocks_encryptBlocks (key before : Block) (bs : List Block) :
    decryptBlocks key before (blocks bs.length (encryptBlocks key before bs)) =
      bs.flatMap Vector.toList := by
  induction bs generalizing before with
  | nil => rfl
  | cons b bs ih =>
    rw [encryptBlocks, List.length_cons, blocks_append, decryptBlocks, ih, Aes128.decrypt_encrypt,
      Aes128.add_add, List.flatMap_cons]

/-! ## What fills the last block -/

theorem unfill?_append {message : Bytes} {gap : Nat} (hpos : 0 < gap) (hle : gap ≤ blockWidth) :
    unfill? (message ++ List.replicate gap gap.toUInt8) = some message := by
  have hlast : (message ++ List.replicate gap gap.toUInt8).getLast? = some gap.toUInt8 := by
    rw [List.getLast?_append, List.getLast?_replicate, if_neg (by omega), Option.some_or]
  have hgap : gap.toUInt8.toNat = gap := by
    have hlt : gap < 256 := Nat.lt_of_le_of_lt hle (by decide)
    exact UInt8.toNat_ofNat_of_lt hlt
  have hkept : (message ++ List.replicate gap gap.toUInt8).length - gap = message.length := by
    rw [List.length_append, List.length_replicate, Nat.add_sub_cancel]
  have hroom : ¬(gap = 0 ∨ blockWidth < gap ∨
      (message ++ List.replicate gap gap.toUInt8).length < gap) := by
    rw [List.length_append, List.length_replicate]
    omega
  simp only [unfill?, hlast, Option.getD_some, hgap, if_neg hroom, hkept, List.drop_left,
    List.take_left, if_true]

theorem unfill?_fill (message : Bytes) : unfill? (fill message) = some message := by
  have hmod : message.length % blockWidth < blockWidth := Nat.mod_lt _ (by decide)
  exact unfill?_append (by omega) (Nat.sub_le _ _)

theorem dvd_length_fill (message : Bytes) : blockWidth ∣ (fill message).length := by
  simp only [fill, List.length_append, List.length_replicate, blockWidth]
  omega

/-! ## Messages -/

theorem decrypt?_encrypt (key start message : Bytes) :
    decrypt? key start (encrypt key start message) = some message := by
  obtain ⟨count, hcount⟩ := dvd_length_fill message
  have hpos : 0 < blockWidth := by decide
  have hdiv : (fill message).length / blockWidth = count := by
    rw [hcount, Nat.mul_div_cancel_left _ hpos]
  have hblocks := length_blocks count (fill message)
  have hlength : (encrypt key start message).length = blockWidth * count := by
    simp only [encrypt, hdiv, length_encryptBlocks, hblocks]
  have hwhole : ¬(encrypt key start message).length % blockWidth ≠ 0 := by
    rw [hlength, Nat.mul_mod_right]
    exact fun h => h rfl
  have hdecrypted := decryptBlocks_encryptBlocks (blockOf key) (blockOf start)
    (blocks count (fill message))
  rw [hblocks, flatMap_blocks hcount] at hdecrypted
  rw [decrypt?, if_neg hwhole, hlength, Nat.mul_div_cancel_left _ hpos]
  simp only [encrypt, hdiv, hdecrypted]
  exact unfill?_fill message

end MetaTx.Cipher
