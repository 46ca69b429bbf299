import MetaTx.Proofs.Except
import MetaTx.Proofs.Key.File

/-!
# Key files and their first problem

Any text is read line by line, and the rule for what comes of it looks at the lines alone: all keys
if all lines are different and each is that of a key, and else the problem of the first line that
repeats another or is not that of a key. A repeated line is told as such before it is decoded. Since
the lines in front of it were decoded, it would be that of a key.
-/

namespace MetaTx

/-! ## Lines -/

namespace Text

theorem pieces_eq_splitOn (c : Char) (cs : List Char) : pieces (· == c) cs = cs.splitOn c := by
  induction cs with
  | nil => rfl
  | cons d cs ih =>
    rw [pieces, ih, List.splitOn, List.splitOn, List.splitOnP_cons_eq_if_modifyHead]
    cases d == c with
    | true => rfl
    | false =>
      cases hrest : cs.splitOnP (· == c) with
      | nil => exact absurd hrest (List.splitOnP_ne_nil _ cs)
      | cons first rest => rfl

end Text

namespace KeyFile

/-- The lines of a text: what stands between line feeds, where one empty piece at the end does not
count, without one carriage return at the end of each. -/
def fileLines (s : String) : List (List Char) :=
  let pieces := s.toList.splitOn '\n'
  let counted := if pieces.getLast? = some [] then pieces.dropLast else pieces
  counted.map fun piece => if piece.getLast? = some '\r' then piece.dropLast else piece

theorem lines_eq_fileLines (s : String) :
    (Text.lines s.toList).map Text.dropReturn = fileLines s := by
  rw [fileLines, Text.lines, Text.pieces_eq_splitOn]
  rfl

theorem read_eq (s : String) : read s = readLines 1 [] (fileLines s) := by
  rw [read, lines_eq_fileLines]

/-- The key of a line. -/
def keyOf (line : List Char) : Except Error PrivateKey := PrivateKey.ofChecked (String.ofList line)

/-! ## One line after the other -/

theorem readLines_cons_of_mem {n : Nat} {seen rest : List (List Char)} {line : List Char}
    (h : line ∈ seen) : readLines n seen (line :: rest) = .error (.duplicateKey n) := by
  rw [readLines, if_pos (List.contains_iff_mem.mpr h)]
  rfl

theorem readLines_cons_of_not_mem {n : Nat} {seen rest : List (List Char)} {line : List Char}
    (h : line ∉ seen) : readLines n seen (line :: rest) =
      (keyOf line >>= fun key => readLines (n + 1) (line :: seen) rest >>= fun keys =>
        .ok (key :: keys)) := by
  rw [readLines, if_neg (List.contains_iff_mem.not.mpr h)]
  rfl

/-- Lines are all read if they are different from each other and from those before them, and each
has a key. -/
theorem readLines_eq_ok_iff {n : Nat} {seen lines : List (List Char)} {keys : List PrivateKey} :
    readLines n seen lines = .ok keys ↔ lines.Nodup ∧ (∀ line ∈ lines, line ∉ seen) ∧
      List.Forall₂ (fun line key => keyOf line = .ok key) lines keys := by
  induction lines generalizing n seen keys with
  | nil =>
    rw [List.forall₂_nil_left_iff]
    constructor
    · intro h
      exact ⟨List.nodup_nil, by simp, (Except.ok.inj h).symm⟩
    · rintro ⟨-, -, rfl⟩
      rfl
  | cons line rest ih =>
    by_cases hseen : line ∈ seen
    · rw [readLines_cons_of_mem hseen]
      constructor
      · intro h
        cases h
      · rintro ⟨-, hnew, -⟩
        exact absurd hseen (hnew line List.mem_cons_self)
    · rw [readLines_cons_of_not_mem hseen, Except.bind_eq_ok_iff, List.forall₂_cons_left_iff,
        List.nodup_cons, List.forall_mem_cons]
      constructor
      · rintro ⟨key, hkey, h⟩
        obtain ⟨others, hothers, h⟩ := Except.bind_eq_ok_iff.mp h
        obtain ⟨hnodup, hnew, hkeys⟩ := ih.mp hothers
        refine ⟨⟨fun hmem => hnew line hmem List.mem_cons_self, hnodup⟩, ⟨hseen, ?_⟩, ?_⟩
        · exact fun other hother hmem => hnew other hother (List.mem_cons_of_mem line hmem)
        · exact ⟨key, others, hkey, hkeys, (Except.ok.inj h).symm⟩
      · rintro ⟨⟨hline, hnodup⟩, ⟨-, hnew⟩, key, others, hkey, hkeys, rfl⟩
        have hunseen : ∀ other ∈ rest, other ∉ line :: seen := by
          intro other hother hmem
          rcases List.mem_cons.mp hmem with rfl | hmem
          · exact hline hother
          · exact hnew other hother hmem
        exact ⟨key, hkey, Except.bind_eq_ok_iff.mpr ⟨others, ih.mpr ⟨hnodup, hunseen, hkeys⟩, rfl⟩⟩

/-! ## The first problem -/

/-- The problem of line number `n`, in front of which others stand. -/
inductive Offends (n : Nat) (earlier : List (List Char)) (line : List Char) : Error → Prop
  | repeated (h : line ∈ earlier) : Offends n earlier line (.duplicateKey n)
  | undecoded {e : Error} (h : line ∉ earlier) (he : keyOf line = .error e) :
    Offends n earlier line e

theorem Offends.congr {n : Nat} {earlier earlier' : List (List Char)} {line : List Char} {e : Error}
    (hsame : line ∈ earlier ↔ line ∈ earlier') (h : Offends n earlier line e) :
    Offends n earlier' line e := by
  cases h with
  | repeated h => exact .repeated (hsame.mp h)
  | undecoded h he => exact .undecoded (hsame.not.mp h) he

/-- Of lines that are not read, the first one has a problem, or the others are not read behind it. -/
theorem readLines_cons_eq_error_iff {n : Nat} {seen rest : List (List Char)} {line : List Char}
    {e : Error} : readLines n seen (line :: rest) = .error e ↔ Offends n seen line e ∨
      line ∉ seen ∧ ∃ key, keyOf line = .ok key ∧
        readLines (n + 1) (line :: seen) rest = .error e := by
  by_cases hseen : line ∈ seen
  · rw [readLines_cons_of_mem hseen]
    constructor
    · intro h
      cases h
      exact .inl (.repeated hseen)
    · rintro (hoffends | ⟨hnew, -⟩)
      · cases hoffends with
        | repeated => rfl
        | undecoded hnew => exact absurd hseen hnew
      · exact absurd hseen hnew
  · rw [readLines_cons_of_not_mem hseen, Except.bind_eq_error_iff]
    constructor
    · rintro (he | ⟨key, hkey, h⟩)
      · exact .inl (.undecoded hseen he)
      · exact .inr ⟨hseen, key, hkey, Except.eq_error_of_bind_pure h⟩
    · rintro (hoffends | ⟨-, key, hkey, h⟩)
      · cases hoffends with
        | repeated hmem => exact absurd hmem hseen
        | undecoded _ he => exact .inl he
      · exact .inr ⟨key, hkey, Except.bind_eq_error_iff.mpr (.inl h)⟩

/-- The first line with a problem decides, and the lines in front of it are read. -/
theorem readLines_eq_error_iff {n : Nat} {seen lines : List (List Char)} {e : Error} :
    readLines n seen lines = .error e ↔ ∃ before line after, lines = before ++ line :: after ∧
      (∃ keys, readLines n seen before = .ok keys) ∧
      Offends (n + before.length) (before ++ seen) line e := by
  induction lines generalizing n seen with
  | nil =>
    constructor
    · intro h
      cases h
    · rintro ⟨before, line, after, h, -⟩
      exact absurd h.symm (by simp)
  | cons first rest ih =>
    -- The first line counts among those seen before when the others are read.
    have hmoved : ∀ (before : List (List Char)) (line : List Char),
        line ∈ before ++ first :: seen ↔ line ∈ first :: before ++ seen := by
      intro before line
      simp only [List.cons_append, List.mem_append, List.mem_cons]
      exact or_left_comm
    have hnumber : ∀ before : List (List Char),
        n + 1 + before.length = n + (first :: before).length := by
      intro before
      rw [List.length_cons]
      omega
    rw [readLines_cons_eq_error_iff]
    constructor
    · rintro (hoffends | ⟨hnew, key, hkey, h⟩)
      · exact ⟨[], first, rest, rfl, ⟨[], rfl⟩, hoffends⟩
      · obtain ⟨before, line, after, rfl, ⟨keys, hbefore⟩, hoffends⟩ := ih.mp h
        refine ⟨first :: before, line, after, rfl, ⟨key :: keys, ?_⟩, ?_⟩
        · rw [readLines_cons_of_not_mem hnew, hkey, Except.ok_bind, hbefore]
          rfl
        · rw [← hnumber]
          exact hoffends.congr (hmoved before line)
    · rintro ⟨before, line, after, h, ⟨keys, hbefore⟩, hoffends⟩
      cases before with
      | nil =>
        obtain ⟨rfl, -⟩ := List.cons.inj h
        exact .inl hoffends
      | cons head before =>
        obtain ⟨rfl, rfl⟩ := List.cons.inj h
        have hnew : first ∉ seen :=
          (readLines_eq_ok_iff.mp hbefore).2.1 first List.mem_cons_self
        rw [readLines_cons_of_not_mem hnew] at hbefore
        obtain ⟨key, hkey, hrest⟩ := Except.bind_eq_ok_iff.mp hbefore
        obtain ⟨others, hothers, -⟩ := Except.bind_eq_ok_iff.mp hrest
        rw [← hnumber] at hoffends
        exact .inr ⟨hnew, key, hkey, ih.mpr ⟨before, line, after, rfl, ⟨others, hothers⟩,
          hoffends.congr (hmoved before line).symm⟩⟩

/-! ## Files -/

theorem read_eq_ok_iff {s : String} {keys : List PrivateKey} :
    read s = .ok keys ↔ (fileLines s).Nodup ∧
      List.Forall₂ (fun line key => keyOf line = .ok key) (fileLines s) keys := by
  rw [read_eq, readLines_eq_ok_iff]
  constructor
  · rintro ⟨hnodup, -, hkeys⟩
    exact ⟨hnodup, hkeys⟩
  · rintro ⟨hnodup, hkeys⟩
    exact ⟨hnodup, fun line _ => List.not_mem_nil, hkeys⟩

/-- Each of the lines is that of a key if they are all made into keys. -/
theorem exists_keys_iff {lines : List (List Char)} :
    (∃ keys, List.Forall₂ (fun line key => keyOf line = .ok key) lines keys) ↔
      ∀ line ∈ lines, ∃ key, keyOf line = .ok key := by
  induction lines with
  | nil => simp
  | cons line rest ih =>
    rw [List.forall_mem_cons, ← ih]
    constructor
    · rintro ⟨keys, h⟩
      obtain ⟨key, others, hkey, hothers, -⟩ := List.forall₂_cons_left_iff.mp h
      exact ⟨⟨key, hkey⟩, others, hothers⟩
    · rintro ⟨⟨key, hkey⟩, others, hothers⟩
      exact ⟨key :: others, .cons hkey hothers⟩

theorem read_eq_error_iff {s : String} {e : Error} :
    read s = .error e ↔ ∃ before line after, fileLines s = before ++ line :: after ∧
      before.Nodup ∧ (∀ earlier ∈ before, ∃ key, keyOf earlier = .ok key) ∧
      Offends (before.length + 1) before line e := by
  rw [read_eq, readLines_eq_error_iff]
  -- Before the first line nothing was seen, and what was read in front are different lines of keys.
  have hbefore : ∀ before : List (List Char), (∃ keys, readLines 1 [] before = .ok keys) ↔
      before.Nodup ∧ ∀ earlier ∈ before, ∃ key, keyOf earlier = .ok key := by
    intro before
    simp only [readLines_eq_ok_iff, List.not_mem_nil, not_false_eq_true, implies_true, true_and,
      exists_and_left, exists_keys_iff]
  simp only [hbefore, List.append_nil, Nat.add_comm 1, and_assoc]

theorem readBytes_ofText (s : String) : readBytes (Bytes.ofText s) = read s := by
  rw [readBytes, Bytes.toText?_ofText]

theorem readBytes_of_ne_ofText {bs : Bytes} (h : ∀ s, bs ≠ Bytes.ofText s) :
    readBytes bs = .error (.keyText .keyFile) := by
  unfold readBytes
  cases htext : Bytes.toText? bs with
  | none => rfl
  | some s => exact absurd (Bytes.ofText_of_toText? htext).symm (h s)

/-! ## Shuffles -/

/-- Two outcomes that are the same but for the order of the keys. -/
inductive SameKeys : Except Error (List PrivateKey) → Except Error (List PrivateKey) → Prop
  | keys {keys shuffled : List PrivateKey} (h : shuffled.Perm keys) :
    SameKeys (.ok keys) (.ok shuffled)
  | failure (e : Error) : SameKeys (.error e) (.error e)

theorem sameKeys_map {shuffle : List PrivateKey → List PrivateKey}
    (h : ∀ keys, (shuffle keys).Perm keys) (outcome : Except Error (List PrivateKey)) :
    SameKeys outcome (outcome.map shuffle) := by
  cases outcome with
  | ok keys => exact .keys (h keys)
  | error e => exact .failure e

/-- **The lines of a key file decide what is read.** It is the key of every line, in their order, if
the lines are all different and all those of keys. Else it is the problem of the first line that
repeats an earlier one, which is told by its number, or that is not that of a key, which is told as
its decoding fails; all lines in front of it are different, and those of keys. Bytes are read as the
text of which they are the UTF-8 bytes, and refused if there is none. A shuffle changes the order of
the keys only. -/
theorem first_problem_decides :
    (∀ (s : String) (keys : List PrivateKey), read s = .ok keys ↔ (fileLines s).Nodup ∧
      List.Forall₂ (fun line key => keyOf line = .ok key) (fileLines s) keys) ∧
    (∀ (s : String) (e : Error), read s = .error e ↔
      ∃ before line after, fileLines s = before ++ line :: after ∧
        before.Nodup ∧ (∀ earlier ∈ before, ∃ key, keyOf earlier = .ok key) ∧
        Offends (before.length + 1) before line e) ∧
    (∀ s : String, readBytes (Bytes.ofText s) = read s) ∧
    (∀ bs : Bytes, (∀ s, bs ≠ Bytes.ofText s) → readBytes bs = .error (.keyText .keyFile)) ∧
    ∀ shuffle : List PrivateKey → List PrivateKey, (∀ keys, (shuffle keys).Perm keys) →
      (∀ s : String, SameKeys (read s) (readShuffled shuffle s)) ∧
        ∀ bs : Bytes, SameKeys (readBytes bs) (readBytesShuffled shuffle bs) := by
  refine ⟨fun s keys => read_eq_ok_iff, fun s e => read_eq_error_iff, readBytes_ofText,
    fun bs hbs => readBytes_of_ne_ofText hbs, ?_⟩
  intro shuffle hshuffle
  exact ⟨fun s => sameKeys_map hshuffle (read s), fun bs => sameKeys_map hshuffle (readBytes bs)⟩

/-- One key in two lines, only the second of which has a carriage return at its end. -/
def repeatedLines : List Line := [⟨.one, true, .feed⟩, ⟨.one, true, .returnFeed⟩]

theorem first_problem_decides_repeated :
    read (render repeatedLines) = .error (.duplicateKey 2) ∧
      readBytes [0xff] = .error (.keyText .keyFile) ∧
      (∀ keys : List PrivateKey, keys.reverse.Perm keys) ∧
      SameKeys (read (render repeatedLines)) (readShuffled List.reverse (render repeatedLines)) := by
  obtain ⟨-, herror, -, hbytes, hshuffled⟩ := first_problem_decides
  have hperm : ∀ keys : List PrivateKey, keys.reverse.Perm keys := List.reverse_perm
  have hended : ∀ line ∈ repeatedLines.dropLast, line.ending.isBreak = true := by decide
  have hlines : fileLines (render repeatedLines) = repeatedLines.map (·.text.toList) := by
    rw [← lines_eq_fileLines, render, String.toList_ofList, lines_written hended]
  have hrepeated : read (render repeatedLines) = .error (.duplicateKey 2) := by
    refine (herror _ _).mpr ⟨[_], _, [], hlines, List.nodup_singleton _, ?_,
      .repeated List.mem_cons_self⟩
    intro earlier hearlier
    obtain rfl := List.mem_singleton.mp hearlier
    exact ⟨_, by rw [keyOf, String.ofList_toList, Line.ofChecked_text]⟩
  have hinvalid : ∀ s, [0xff] ≠ Bytes.ofText s := by
    intro s hs
    have htext := Bytes.toText?_ofText s
    rw [← hs] at htext
    cases htext
  exact ⟨hrepeated, hbytes _ hinvalid, hperm, (hshuffled List.reverse hperm).1 _⟩

end KeyFile

end MetaTx
