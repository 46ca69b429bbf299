import MetaTx.Proofs.Bytes.Base64Url
import MetaTx.Proofs.Bytes.Number
import MetaTx.Proofs.Cipher.Chain
import MetaTx.Proofs.Except
import MetaTx.Secret

/-!
# Secrets at rest are revealed

Under the master key with which it was made, a token reveals the secret that it was made of, also
after it was made anew under another key. Up to a time of 36 bits, which lasts for more than two
thousand years, all tokens start in the same way.
-/

namespace MetaTx.Secret

/-! ## Tokens -/

/-- What a token holds in front of its tag. -/
def body (key : MasterKey) (seed : TokenSeed) (secret : String) : Bytes :=
  version :: Bytes.ofNat 8 seed.time ++ seed.start ++
    Cipher.encrypt key.encrypting seed.start (Bytes.ofText secret)

theorem toList_wrap (key : MasterKey) (seed : TokenSeed) (secret : String) :
    (wrap key seed secret).toList = Base64Url.encode
      (body key seed secret ++ hmac key.tagging (body key seed secret)) :=
  String.toList_ofList

theorem openBody?_body (key : MasterKey) {seed : TokenSeed} (secret : String)
    (hstart : seed.start.length = 16) :
    openBody? key (body key seed secret) = some (Bytes.ofText secret) := by
  have hhead : (version :: Bytes.ofNat 8 seed.time).length = 9 := by
    rw [List.length_cons, Bytes.length_ofNat]
  have hfront : (version :: Bytes.ofNat 8 seed.time ++ seed.start).length = 25 := by
    rw [List.length_append, hhead, hstart]
  rw [openBody?, body, List.drop_left' hfront, List.append_assoc, List.drop_left' hhead,
    List.take_left' hstart, Cipher.decrypt?_encrypt]

theorem openBytes?_wrap (key : MasterKey) {seed : TokenSeed} (secret : String)
    (hstart : seed.start.length = 16) :
    openBytes? key (wrap key seed secret) = some (Bytes.ofText secret) := by
  have htag : (hmac key.tagging (body key seed secret)).length = tagWidth := length_hmac _ _
  have hkept : (body key seed secret ++ hmac key.tagging (body key seed secret)).length -
      tagWidth = (body key seed secret).length := by
    rw [List.length_append, htag, Nat.add_sub_cancel]
  have hroom : 9 ≤ (body key seed secret ++ hmac key.tagging (body key seed secret)).length := by
    simp only [body, List.length_append, List.length_cons, Bytes.length_ofNat]
    omega
  simp only [openBytes?, toList_wrap, Base64Url.decode?_encode, Option.bind_eq_bind,
    Option.bind_some, hkept, List.take_left, List.drop_left]
  rw [if_pos ⟨by rfl, hroom, trivial⟩, openBody?_body key secret hstart]

theorem unwrap_wrap (key : MasterKey) {seed : TokenSeed} (secret : String)
    (hstart : seed.start.length = 16) : unwrap key (wrap key seed secret) = .ok secret := by
  simp only [unwrap, openBytes?_wrap key secret hstart, Bytes.toText?_ofText]

/-- The version takes two characters, and the first three and a half bytes of the time the next
four, which are all the same as long as these are zero. -/
theorem isEncrypted_wrap (key : MasterKey) {seed : TokenSeed} (secret : String)
    (htime : seed.time < 2 ^ 36) : isEncrypted (wrap key seed secret) = true := by
  have hzero : ∀ width, 2 ^ 36 ≤ Bytes.limit width → (seed.time / Bytes.limit width).toUInt8 = 0 := by
    intro width hwidth
    rw [Nat.div_eq_of_lt (Nat.lt_of_lt_of_le htime hwidth)]
    rfl
  have hquarter : (seed.time / Bytes.limit 4).toUInt8.toNat / 16 = 0 := by
    have hlimit : Bytes.limit 4 = 2 ^ 32 := by decide
    rw [hlimit, Nat.toUInt8, UInt8.toNat_ofNat']
    omega
  have hfront : Bytes.ofNat 8 seed.time = 0 :: 0 :: 0 :: (seed.time / Bytes.limit 4).toUInt8 ::
      (seed.time / Bytes.limit 3).toUInt8 :: Bytes.ofNat 3 seed.time := by
    rw [Bytes.ofNat_succ_cons, Bytes.ofNat_succ_cons, Bytes.ofNat_succ_cons, Bytes.ofNat_succ_cons,
      Bytes.ofNat_succ_cons, hzero 7 (by decide), hzero 6 (by decide), hzero 5 (by decide)]
  rw [isEncrypted, toList_wrap, body, hfront]
  simp only [List.cons_append, Base64Url.encode, hquarter]
  rfl

/-! ## Settings -/

/-- A master key that was generated is read back in its two halves. -/
theorem ofText_text {random : Bytes} (h : random.length = MasterKey.width) :
    MasterKey.ofText (MasterKey.text random) = .ok ⟨random.take 16, random.drop 16⟩ := by
  simp only [MasterKey.ofText, MasterKey.text, String.toList_ofList, Base64Url.decode?_encode, h,
    ↓reduceIte]

theorem ne_empty_of_masterKey {masterKey : String} {key : MasterKey}
    (h : MasterKey.ofText masterKey = .ok key) : masterKey ≠ "" := by
  rintro rfl
  cases h

variable {masterKey : String} {key : MasterKey} {seed : TokenSeed}

theorem encrypt_eq (h : MasterKey.ofText masterKey = .ok key) (seed : TokenSeed) (secret : String) :
    encrypt masterKey seed secret = .ok (wrap key seed secret) := by
  rw [encrypt, h]
  rfl

/-- A token is revealed under the master key with which it was made. -/
theorem reveal_wrap (h : MasterKey.ofText masterKey = .ok key) (secret : String)
    (hstart : seed.start.length = 16) (htime : seed.time < 2 ^ 36) :
    reveal (some masterKey) (wrap key seed secret) = .ok secret := by
  rw [reveal, if_pos (isEncrypted_wrap key secret htime)]
  simp only [if_neg (ne_empty_of_masterKey h), decryptToken, h]
  exact unwrap_wrap key secret hstart

/-- A token that is made anew is the one that is made of the secret under the new key. -/
theorem rotate_wrap {newKey : String} {next : MasterKey} (h : MasterKey.ofText masterKey = .ok key)
    (hnext : MasterKey.ofText newKey = .ok next) (newSeed : TokenSeed) (secret : String)
    (hstart : seed.start.length = 16) :
    rotate masterKey newKey newSeed (wrap key seed secret) = .ok (wrap next newSeed secret) := by
  simp only [rotate, h, hnext, Except.ok_bind, unwrap_wrap key secret hstart]
  rfl

end MetaTx.Secret
