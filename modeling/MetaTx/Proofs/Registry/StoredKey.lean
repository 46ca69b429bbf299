import MetaTx.Proofs.Error
import MetaTx.Proofs.Key.Loading
import MetaTx.Proofs.Key.Text
import MetaTx.Proofs.Secret
import MetaTx.Proofs.Service.Session
import MetaTx.Registry

/-!
# Stored keys make the same signer

A private key may be kept in the settings as a text, in clear or as a token, which may have been
made anew under another master key, or in the first line of a key file. In each of these ways a
process that has no signer yet gets one that holds the key, and signs as the key does. The chain of
the signer is told in the log first, so none is made for a chain whose number has too many digits.
-/

namespace MetaTx

/-! ## Texts of keys in the settings -/

/-- A token is made with 16 random bytes, at a time that has no more than 36 bits. -/
structure TokenSeed.IsTimely (seed : TokenSeed) : Prop where
  start : seed.start.length = 16
  time : seed.time < 2 ^ 36

namespace PrivateKey

variable {key : PrivateKey} {w : String}

/-- Neither a blank nor a digit nor the mark of the checked form starts a token. -/
theorem IsTextOf.not_isEncrypted (h : key.IsTextOf w) : Secret.isEncrypted w = false := by
  obtain ⟨before, cs, after, hw, hspells, hbefore, -⟩ := h
  obtain ⟨c, rest, rfl, hc⟩ := hspells.exists_cons
  rw [Secret.isEncrypted, Bool.eq_false_iff, ne_eq, List.isPrefixOf_iff_prefix, hw]
  rintro ⟨behind, hmark⟩
  have hfirst : 'g' :: ("AAAAA".toList ++ behind) = before ++ c :: rest ++ after := hmark
  cases before with
  | nil =>
    obtain ⟨rfl, -⟩ := List.cons.inj hfirst
    exact absurd hc (by decide)
  | cons b before =>
    obtain ⟨rfl, -⟩ := List.cons.inj hfirst
    exact absurd (hbefore _ List.mem_cons_self) (by decide)

theorem IsTextOf.ne_empty (h : key.IsTextOf w) : w ≠ "" := by
  rintro rfl
  obtain ⟨before, cs, after, hw, hspells, -⟩ := h
  obtain ⟨c, rest, rfl, -⟩ := hspells.exists_cons
  have hlength := congrArg List.length hw
  simp at hlength

theorem IsTextOf.reveal (h : key.IsTextOf w) (masterKey? : Option String) :
    Secret.reveal masterKey? w = .ok w := by
  refine if_neg ?_
  rw [h.not_isEncrypted]
  exact Bool.false_ne_true

end PrivateKey

/-! ## The key that the settings tell -/

namespace Settings

variable {s : Settings} {around : Surroundings} {key : PrivateKey} {text w : String}

theorem given?_of_ne_empty (h : text ≠ "") : given? (some text) = some text := by
  rw [given?, Option.filter_some, if_pos (bne_iff_ne.mpr h)]

theorem localKey_of_text (h : s.privateKey? = some text) (hne : text ≠ "")
    (hreveal : Secret.reveal s.masterKey? text = .ok w) (hw : key.IsTextOf w) :
    s.localKey around = .ok key := by
  rw [localKey, h, given?_of_ne_empty hne]
  simp only [hreveal, Except.ok_bind]
  exact PrivateKey.ofText_of_isTextOf hw

theorem localKey_of_token {masterKey : String} {master : MasterKey} {seed : TokenSeed}
    (hmaster : MasterKey.ofText masterKey = .ok master) (hseed : seed.IsTimely)
    (h : s.privateKey? = some (Secret.wrap master seed w)) (hkey : s.masterKey? = some masterKey)
    (hw : key.IsTextOf w) : s.localKey around = .ok key := by
  have hreveal := Secret.reveal_wrap hmaster w hseed.start hseed.time
  have hne : Secret.wrap master seed w ≠ "" := by
    intro hempty
    have hmark := Secret.isEncrypted_wrap master w hseed.time
    rw [hempty] at hmark
    exact absurd hmark (by decide)
  rw [← hkey] at hreveal
  exact localKey_of_text h hne hreveal hw

theorem localKey_of_file {path content : String} {others : List (List Char)}
    (hnone : given? s.privateKey? = none) (hpath : s.keyFile? = some path)
    (hread : around.files.read path = .ok (Bytes.ofText content))
    (hlines : KeyFile.fileLines content = key.toChecked.toList :: others)
    (hdistinct : (key.toChecked.toList :: others).Nodup)
    (hothers : ∀ line ∈ others, ∃ other, KeyFile.keyOf line = .ok other) :
    s.localKey around = .ok key := by
  have hne : path ≠ "" := by
    rintro rfl
    cases hread
  obtain ⟨keys, hkeys⟩ := KeyFile.exists_keys_iff.mpr hothers
  have hfirst : KeyFile.keyOf key.toChecked.toList = .ok key := by
    rw [KeyFile.keyOf, String.ofList_toList, PrivateKey.ofChecked_toChecked]
  have hcontent : KeyFile.read content = .ok (key :: keys) := by
    rw [KeyFile.read_eq_ok_iff, hlines]
    exact ⟨hdistinct, .cons hfirst hkeys⟩
  have hload : KeyFile.load around.files path = .ok (key :: keys) := by
    rw [KeyFile.load, hread]
    exact (KeyFile.readBytes_ofText content).trans hcontent
  rw [localKey, hnone, hpath, given?_of_ne_empty hne]
  simp only [hload, Except.ok_bind]
  rfl

/-! ## The signer that is made -/

/-- A process without a signer gets one that holds a key: its account is that of the key, its chain
that of the settings, and it signs every digest as the key does. -/
def LeadTo (s : Settings) (around : Surroundings) (key : PrivateKey) : Prop :=
  ∀ (r : Registry) (session : Session), r.current? = none →
    ∃ stored after, (r.get s around).outcome session = (.ok (stored, after), session) ∧
      after.current? = some stored ∧ stored.signer.kind = "local" ∧
      stored.signer.account = key.account ∧ stored.signer.chainId? = some s.chainId ∧
      ∀ (digest : Bytes) (session : Session),
        (stored.signer.signDigest digest).outcome session = (key.signDigest digest, session)

/-- Settings lead to a key as long as their chain id can be told in the log. If it has too many
digits, a process without a signer gets none. -/
def LeadToIfWritable (s : Settings) (around : Surroundings) (key : PrivateKey) : Prop :=
  (s.chainId.natAbs < Text.writeLimit → s.LeadTo around key) ∧
    (Text.writeLimit ≤ s.chainId.natAbs → ∀ (r : Registry) (session : Session),
      r.current? = none →
        (r.get s around).outcome session = (.error (.fault .longInteger), session))

theorem outcome_signDigest_ofKey (key : PrivateKey) (chainId? : Option Int) (digest : Bytes)
    (session : Session) :
    ((Signer.ofKey key chainId?).signDigest digest).outcome session =
      (key.signDigest digest, session) := by
  by_cases hdigest : digest.length = Error.digestWidth
  · have hsign : (Signer.ofKey key chainId?).signDigest digest = liftM (key.signDigest digest) := by
      simp only [Signer.signDigest, hdigest, ne_eq, not_true_eq_false, ↓reduceIte]
      rfl
    rw [hsign, Run.outcome_lift]
  · have hrefused : key.signDigest digest = .error (.digestLength digest.length) := if_neg hdigest
    have hsign : (Signer.ofKey key chainId?).signDigest digest =
        throw (.digestLength digest.length) := by
      simp only [Signer.signDigest, hdigest, ne_eq, not_false_eq_true, ↓reduceIte]
      rfl
    rw [hsign, Run.outcome_throw, hrefused]

theorem leadTo_of_localKey (hchoice : s.choice = .ok .held) (hkey : s.localKey around = .ok key)
    (hchain : s.chainId.natAbs < Text.writeLimit) : s.LeadTo around key := by
  intro r session hfresh
  let signer := Signer.ofKey key (some s.chainId)
  have hbegin : r.begin s around = .ok (.made signer) := by
    simp only [Registry.begin, hfresh, hchoice, hkey, Value.log_of_writable hchain, Except.ok_bind]
    rfl
  have hget : (r.get s around).outcome session = (.ok (r.store signer), session) := by
    rw [Registry.get, hbegin]
    rfl
  exact ⟨(r.store signer).1, (r.store signer).2, hget, rfl, rfl, rfl, rfl,
    outcome_signDigest_ofKey key (some s.chainId)⟩

/-- The key is not even looked for when the chain id has too many digits. -/
theorem outcome_get_of_long (hchoice : s.choice = .ok .held)
    (hchain : Text.writeLimit ≤ s.chainId.natAbs) {r : Registry} (hfresh : r.current? = none)
    (session : Session) :
    (r.get s around).outcome session = (.error (.fault .longInteger), session) := by
  have hbegin : r.begin s around = .error (.fault .longInteger) := by
    simp only [Registry.begin, hfresh, hchoice, Value.log_of_long hchain, Except.ok_bind]
    rfl
  rw [Registry.get, hbegin]
  rfl

theorem leadToIfWritable_of_localKey (hchoice : s.choice = .ok .held)
    (hkey : s.localKey around = .ok key) : s.LeadToIfWritable around key :=
  ⟨leadTo_of_localKey hchoice hkey,
    fun hchain _ session hfresh => outcome_get_of_long hchoice hchain hfresh session⟩

end Settings

/-- **Every way to store a key makes a signer that signs as the key does.** A text of the key in
clear is not taken for a token. It may stand in the settings itself, or as a token that is made of it
under the master key of the settings, or as one that was made under another master key and anew
under that one. Or there is no key in the settings, but a key file with the key in the first line,
and the keys of other lines behind. All of them make the signer as long as the chain id of the
settings can be told in the log, and none of them does if it has too many digits. -/
theorem PrivateKey.stored_alike (key : PrivateKey) :
    (∀ w, key.IsTextOf w → Secret.isEncrypted w = false ∧
      ∀ (s : Settings) (around : Surroundings), s.choice = .ok .held → s.privateKey? = some w →
        s.LeadToIfWritable around key) ∧
    (∀ w, key.IsTextOf w → ∀ (masterKey : String) (seed : TokenSeed),
      (∃ master, MasterKey.ofText masterKey = .ok master) → seed.IsTimely →
        ∃ token, Secret.encrypt masterKey seed w = .ok token ∧
          ∀ (s : Settings) (around : Surroundings), s.choice = .ok .held →
            s.privateKey? = some token → s.masterKey? = some masterKey → s.LeadToIfWritable around key) ∧
    (∀ w, key.IsTextOf w → ∀ (oldKey newKey : String) (oldSeed newSeed : TokenSeed),
      (∃ master, MasterKey.ofText oldKey = .ok master) →
      (∃ master, MasterKey.ofText newKey = .ok master) → oldSeed.IsTimely → newSeed.IsTimely →
        ∃ old token, Secret.encrypt oldKey oldSeed w = .ok old ∧
          Secret.rotate oldKey newKey newSeed old = .ok token ∧
          ∀ (s : Settings) (around : Surroundings), s.choice = .ok .held →
            s.privateKey? = some token → s.masterKey? = some newKey → s.LeadToIfWritable around key) ∧
    ∀ (s : Settings) (around : Surroundings) (path content : String) (others : List (List Char)),
      s.choice = .ok .held → Settings.given? s.privateKey? = none → s.keyFile? = some path →
      around.files.read path = .ok (Bytes.ofText content) →
      KeyFile.fileLines content = key.toChecked.toList :: others →
      (key.toChecked.toList :: others).Nodup →
      (∀ line ∈ others, ∃ other, KeyFile.keyOf line = .ok other) → s.LeadToIfWritable around key := by
  refine ⟨?_, ?_, ?_, ?_⟩
  · intro w hw
    refine ⟨hw.not_isEncrypted, fun s around hchoice h => ?_⟩
    exact Settings.leadToIfWritable_of_localKey hchoice
      (Settings.localKey_of_text h hw.ne_empty (hw.reveal s.masterKey?) hw)
  · rintro w hw masterKey seed ⟨master, hmaster⟩ hseed
    refine ⟨_, Secret.encrypt_eq hmaster seed w, fun s around hchoice h hkey => ?_⟩
    exact Settings.leadToIfWritable_of_localKey hchoice (Settings.localKey_of_token hmaster hseed h hkey hw)
  · rintro w hw oldKey newKey oldSeed newSeed ⟨old, hold⟩ ⟨new, hnew⟩ holdSeed hnewSeed
    refine ⟨_, _, Secret.encrypt_eq hold oldSeed w,
      Secret.rotate_wrap hold hnew newSeed w holdSeed.start, fun s around hchoice h hkey => ?_⟩
    exact Settings.leadToIfWritable_of_localKey hchoice (Settings.localKey_of_token hnew hnewSeed h hkey hw)
  · intro s around path content others hchoice hnone hpath hread hlines hdistinct hothers
    exact Settings.leadToIfWritable_of_localKey hchoice
      (Settings.localKey_of_file hnone hpath hread hlines hdistinct hothers)

/-! ## A key in all ways -/

namespace StoredSample

def key : PrivateKey := ⟨0xab, by decide, by decide⟩

/-- The digits of the key in upper case, with a tabulator in front and a line feed behind. -/
def text : String := String.ofList ('\t' :: '0' :: 'x' :: List.replicate 62 '0' ++ ['A', 'B', '\n'])

/-- A master key of zeros, and one of ones. -/
def masterKey (digit : UInt8) : String := MasterKey.text (List.replicate 32 digit)

def seed : TokenSeed := ⟨1700000000, List.replicate 16 0⟩

/-- The key in the first line, and another one behind it. -/
def lines : List KeyFile.Line := [⟨key, true, .feed⟩, ⟨.one, false, .nothing⟩]

def around : Surroundings where
  files := .single "keys" (Bytes.ofText (KeyFile.render lines))

def settings (privateKey? keyFile? masterKey? : Option String) : Settings where
  environment := "development"
  debug := false
  signerBackend := "local"
  privateKey? := privateKey?
  keyFile? := keyFile?
  serviceKeyId? := none
  region := ServiceKey.defaultRegion
  chainId := 43114
  networkId := 1
  masterKey? := masterKey?

theorem isTextOf_text : key.IsTextOf text := by
  refine ⟨['\t'], '0' :: 'x' :: List.replicate 62 '0' ++ ['A', 'B'], ['\n'], ?_, ?_, ?_, ?_⟩
  · rfl
  · exact .marked (by decide)
  · exact List.forall_mem_singleton.mpr (by decide)
  · exact List.forall_mem_singleton.mpr (by decide)

theorem choice_settings (privateKey? keyFile? masterKey? : Option String) :
    (settings privateKey? keyFile? masterKey?).choice = .ok .held := by
  have hnamed : String.ofList (Text.lower (Text.trim Text.isBlank "local".toList)) = "local" := by
    decide
  simp only [Settings.choice, settings, hnamed]
  rfl

theorem read_around : around.files.read "keys" = .ok (Bytes.ofText (KeyFile.render lines)) := rfl

theorem fileLines_lines : KeyFile.fileLines (KeyFile.render lines) = lines.map (·.text.toList) := by
  have hended : ∀ line ∈ lines.dropLast, line.ending.isBreak = true := by decide
  rw [← KeyFile.lines_eq_fileLines, KeyFile.render, String.toList_ofList, KeyFile.lines_written hended]

end StoredSample

open StoredSample in
theorem PrivateKey.stored_alike_sample :
    (settings (some text) none none).LeadTo {} key ∧
    (∃ token, Secret.encrypt (masterKey 1) seed text = .ok token ∧
      (settings (some token) none (some (masterKey 1))).LeadTo {} key) ∧
    (∃ old token, Secret.encrypt (masterKey 0) seed text = .ok old ∧
      Secret.rotate (masterKey 0) (masterKey 1) seed old = .ok token ∧
      (settings (some token) none (some (masterKey 1))).LeadTo {} key) ∧
    (settings none (some "keys") none).LeadTo around key := by
  obtain ⟨hclear, htoken, hrotated, hfile⟩ := stored_alike key
  have hmaster : ∀ digit, ∃ master, MasterKey.ofText (masterKey digit) = .ok master := fun digit =>
    ⟨_, Secret.ofText_text List.length_replicate⟩
  have hseed : seed.IsTimely := ⟨by decide, by decide⟩
  obtain ⟨token, hencrypted, hlead⟩ := htoken text isTextOf_text (masterKey 1) seed (hmaster 1) hseed
  obtain ⟨old, anew, hold, hanew, hleadAnew⟩ := hrotated text isTextOf_text (masterKey 0)
    (masterKey 1) seed seed (hmaster 0) (hmaster 1) hseed hseed
  have hdistinct : (lines.map (·.text.toList)).Nodup := KeyFile.nodup_texts (by decide)
  have hchain : (43114 : Int).natAbs < Text.writeLimit := Text.lt_writeLimit (by decide)
  refine ⟨((hclear text isTextOf_text).2 _ _ (choice_settings _ _ _) rfl).1 hchain,
    ⟨token, hencrypted, (hlead _ _ (choice_settings _ _ _) rfl rfl).1 hchain⟩,
    ⟨old, anew, hold, hanew, (hleadAnew _ _ (choice_settings _ _ _) rfl rfl).1 hchain⟩,
    (hfile _ _ "keys" _ _ (choice_settings _ _ _) rfl rfl read_around fileLines_lines hdistinct
      ?_).1 hchain⟩
  intro line hline
  obtain rfl := List.mem_singleton.mp hline
  exact ⟨_, by rw [KeyFile.keyOf, String.ofList_toList, KeyFile.Line.ofChecked_text]⟩

/-- Settings with a key in clear and a chain id with too many digits. -/
def StoredSample.longChain : Settings :=
  { StoredSample.settings (some StoredSample.text) none none with chainId := Text.writeLimit }

/-- The first call of a process with these settings fails, with none of the errors of this library. -/
theorem PrivateKey.stored_unalike :
    StoredSample.key.IsTextOf StoredSample.text ∧ StoredSample.longChain.choice = .ok .held ∧
      StoredSample.longChain.privateKey? = some StoredSample.text ∧
      (({} : Registry).get StoredSample.longChain {}).outcome {} =
        (.error (.fault .longInteger), {}) ∧
      (Error.fault .longInteger).isA .any = false := by
  have hchoice : StoredSample.longChain.choice = .ok .held :=
    StoredSample.choice_settings (some StoredSample.text) none none
  have hchain : Text.writeLimit ≤ StoredSample.longChain.chainId.natAbs := Nat.le_refl _
  exact ⟨StoredSample.isTextOf_text, hchoice, rfl,
    Settings.outcome_get_of_long hchoice hchain rfl {}, rfl⟩

end MetaTx
