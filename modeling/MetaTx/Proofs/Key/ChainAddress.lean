import MetaTx.Key.Info
import MetaTx.Key.Network
import MetaTx.Proofs.Bytes.Bech32
import MetaTx.Proofs.Key.Public

/-!
# Chain addresses are read back

All networks have names in lower case. So behind its alias, each address of a key is read under the
name of the network to the short id of the key, and the addresses on a network differ in the alias
alone.
-/

namespace MetaTx

namespace Network

theorem hrp_mem (network : Int) : hrp network ∈ fallback :: names.map Prod.snd := by
  unfold hrp
  cases hname : names.lookup network with
  | none => exact List.mem_cons_self
  | some name =>
    obtain ⟨before, after, hsplit, -⟩ := List.lookup_eq_some_iff.mp hname
    refine List.mem_cons_of_mem fallback (List.mem_map.mpr ⟨(network, name), ?_, rfl⟩)
    rw [hsplit]
    exact List.mem_append_right before List.mem_cons_self

theorem hrp_ne_empty (network : Int) : hrp network ≠ "" := by
  have hall : ∀ name ∈ fallback :: names.map Prod.snd, name ≠ "" := by decide
  exact hall _ (hrp_mem network)

theorem plain_of_mem_hrp {network : Int} :
    ∀ c ∈ (hrp network).toList, Bech32.isHrpChar c = true ∧ Text.isUpper c = false := by
  have hall : ∀ name ∈ fallback :: names.map Prod.snd,
      name.toList.all (fun c => Bech32.isHrpChar c && !Text.isUpper c) = true := by decide
  intro c hc
  simpa using List.all_eq_true.mp (hall _ (hrp_mem network)) c hc

end Network

namespace PublicKey

/-- **A chain address is read to the short id, and to nothing else.** Bytes are read from what they
are written as under a human-readable part in lower case, with separators of its own or without,
and what is read is, in lower case, what would be written. So the addresses of a key on a network
hold its short id under the name of the network, and differ in the alias in front alone. -/
theorem chainAddress_exact :
    (∀ (hrp : String) (bs : Bytes), hrp ≠ "" →
      (∀ c ∈ hrp.toList, Bech32.isHrpChar c = true ∧ Text.isUpper c = false) → bs ≠ [] →
        Bech32.decode hrp (Bech32.encode hrp bs) = .ok bs) ∧
    (∀ (hrp address : String) (bs : Bytes), Bech32.decode hrp address = .ok bs →
      String.ofList (Text.lower address.toList) = Bech32.encode hrp bs) ∧
    ∀ (key : PublicKey) (network : Int), Secp256k1.isOnCurve key.x key.y = true →
      ∃ info id address, key.info network = .ok info ∧ key.shortId = .ok id ∧
        Bech32.decode (Network.hrp network) address = .ok id ∧
        info.networks = [(network, ⟨"X-" ++ address, "P-" ++ address, "C-" ++ address⟩)] := by
  refine ⟨fun hrp bs hne hhrp hbs => Bech32.decode_encode hne hhrp hbs, ?_, ?_⟩
  · intro hrp address bs h
    obtain ⟨-, -, haddress⟩ := Bech32.decode_eq_ok_iff_encode.mp h
    rw [haddress, String.ofList_toList]
  · intro key network h
    have hid := shortId_eq h
    have hwidth : (hash160 (key.parityMark :: Bytes.ofNat 32 key.x)).length = 20 :=
      Ripemd160.length_hash _
    have hne : hash160 (key.parityMark :: Bytes.ofNat 32 key.x) ≠ [] := by
      intro hnil
      rw [hnil] at hwidth
      cases hwidth
    exact ⟨_, _, _, info_eq network hid, hid,
      Bech32.decode_encode (Network.hrp_ne_empty network) Network.plain_of_mem_hrp hne, rfl⟩

theorem chainAddress_exact_samples :
    Bech32.decode "a1" (Bech32.encode "a1" [0]) = .ok [0] ∧
      String.ofList (Text.lower (Bech32.encode "a1" [0]).toList) = Bech32.encode "a1" [0] ∧
      ∃ info id address, (ofPoint Secp256k1.g).info 1 = .ok info ∧
        (ofPoint Secp256k1.g).shortId = .ok id ∧ Bech32.decode "avax" address = .ok id ∧
        info.networks = [(1, ⟨"X-" ++ address, "P-" ++ address, "C-" ++ address⟩)] := by
  obtain ⟨hread, hwritten, haddresses⟩ := chainAddress_exact
  have hplain : ∀ c ∈ "a1".toList, Bech32.isHrpChar c = true ∧ Text.isUpper c = false := by
    exact List.forall_mem_cons.mpr ⟨by decide, List.forall_mem_singleton.mpr (by decide)⟩
  have hone := hread "a1" [0] (by decide) hplain (by decide)
  exact ⟨hone, hwritten _ _ _ hone, haddresses (ofPoint Secp256k1.g) 1 (by decide +kernel)⟩

end PublicKey

end MetaTx
