import MetaTx.Cipher.Aes128

/-!
# Chained blocks

Messages of any length under AES: filled up to whole blocks with as many bytes as they
have in number, each block added to the cipher of the one before it.
-/

namespace MetaTx.Cipher

open Aes128 (Block)

/-- The number of bytes of a block. -/
def blockWidth : Nat := 16

/-- The first 16 bytes of a byte string, zeros standing for missing ones. -/
def blockOf (bs : Bytes) : Block := Vector.ofFn fun i => bs.getD i.val 0

/-- Cuts the first `n` blocks off a byte string. -/
def blocks : (n : Nat) → Bytes → List Block
  | 0, _ => []
  | n + 1, bs => blockOf bs :: blocks n (bs.drop blockWidth)

/-- Fills a message up to whole blocks, with at least one byte. -/
def fill (message : Bytes) : Bytes :=
  let gap := blockWidth - message.length % blockWidth
  message ++ List.replicate gap gap.toUInt8

/-- A message without what fills its last block. -/
def unfill? (filled : Bytes) : Option Bytes :=
  let gap := (filled.getLast?.getD 0).toNat
  if gap = 0 ∨ blockWidth < gap ∨ filled.length < gap then none
  else
    let message := filled.take (filled.length - gap)
    if filled.drop (filled.length - gap) = List.replicate gap gap.toUInt8 then some message
    else none

def encryptBlocks (key : Block) : (before : Block) → List Block → Bytes
  | _, [] => []
  | before, b :: rest =>
    let c := Aes128.encrypt key (Aes128.add b before)
    c.toList ++ encryptBlocks key c rest

def decryptBlocks (key : Block) : (before : Block) → List Block → Bytes
  | _, [] => []
  | before, c :: rest =>
    (Aes128.add (Aes128.decrypt key c) before).toList ++ decryptBlocks key c rest

/-- Encrypts a message from a starting block. -/
def encrypt (key start message : Bytes) : Bytes :=
  let filled := fill message
  encryptBlocks (blockOf key) (blockOf start) (blocks (filled.length / blockWidth) filled)

/-- Decrypts what is in whole blocks and rightly filled. -/
def decrypt? (key start cipher : Bytes) : Option Bytes :=
  if cipher.length % blockWidth ≠ 0 then none
  else unfill? <| decryptBlocks (blockOf key) (blockOf start)
    (blocks (cipher.length / blockWidth) cipher)

end MetaTx.Cipher
