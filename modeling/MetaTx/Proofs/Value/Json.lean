import MetaTx.Proofs.Bytes.Hex
import MetaTx.Proofs.Text.Integer
import MetaTx.Value.Json

/-!
# JSON text is read back

A reader of JSON for texts, integers and mappings of these. Texts are read as UTF-16 units first, of
which two can make one character. What the writer makes of such values is read as the value, so no
two of them have the same text.
-/

namespace MetaTx.Json

open MetaTx.Value (utf16Units jsonEscaped jsonQuoted jsonBreak jsonBlock jsonEntries)

/-! ## The reader -/

/-- White space between the tokens. -/
def isBlank (c : Char) : Bool := c == ' ' || c == '\t' || c == '\n' || c == '\r'

def skip (cs : List Char) : List Char := cs.dropWhile isBlank

/-- The character that a letter behind a backslash stands for. -/
def escaped? : Char → Option Char
  | '"' => some '"'
  | '\\' => some '\\'
  | '/' => some '/'
  | 'b' => some '\x08'
  | 'f' => some '\x0c'
  | 'n' => some '\n'
  | 'r' => some '\r'
  | 't' => some '\t'
  | _ => none

/-- The units of a text up to its closing quote, and what stands behind the quote. -/
def units? : List Char → Option (List Nat × List Char)
  | [] => none
  | '"' :: rest => some ([], rest)
  | '\\' :: 'u' :: a :: b :: c :: d :: rest =>
    (Hex.number? [a, b, c, d]).bind fun unit =>
      (units? rest).map fun (units, rest) => (unit :: units, rest)
  | '\\' :: c :: rest =>
    (escaped? c).bind fun c =>
      (units? rest).map fun (units, rest) => (utf16Units c ++ units, rest)
  | c :: rest => (units? rest).map fun (units, rest) => (utf16Units c ++ units, rest)

/-- The characters that units make; one of a pair does not stand alone. -/
def ofUnits? : List Nat → Option (List Char)
  | [] => some []
  | unit :: rest =>
    if unit < 0xD800 ∨ 0xE000 ≤ unit then (ofUnits? rest).map (Char.ofNat unit :: ·)
    else if 0xDC00 ≤ unit then none
    else match rest with
      | [] => none
      | low :: rest =>
        if 0xDC00 ≤ low ∧ low < 0xE000 then
          (ofUnits? rest).map
            (Char.ofNat (0x10000 + (unit - 0xD800) * 0x400 + (low - 0xDC00)) :: ·)
        else none

/-- A text behind its opening quote. -/
def text? (cs : List Char) : Option (String × List Char) :=
  (units? cs).bind fun (units, rest) => (ofUnits? units).map fun cs => (String.ofList cs, rest)

/-- The characters of an integer. -/
def isNumeric (c : Char) : Bool := c.isDigit || c == '-'

def number? (cs : List Char) : Option (Value × List Char) :=
  match Text.readPlainInt (cs.takeWhile isNumeric) with
  | .ok n => some (.int n, cs.dropWhile isNumeric)
  | .error _ => none

/-- An entry of a mapping, by a reader of its value. -/
def pair? (read? : List Char → Option (Value × List Char)) :
    List Char → Option ((String × Value) × List Char)
  | '"' :: rest =>
    (text? rest).bind fun (key, rest) =>
      match skip rest with
      | ':' :: rest => (read? (skip rest)).map fun (v, rest) => ((key, v), rest)
      | _ => none
  | _ => none

mutual

/-- A value, and what stands behind it. -/
def value? : (fuel : Nat) → List Char → Option (Value × List Char)
  | 0, _ => none
  | fuel + 1, cs =>
    match cs with
    | '"' :: rest => (text? rest).map fun (s, rest) => (.text s, rest)
    | '\x7b' :: rest =>
      match skip rest with
      | '\x7d' :: rest => some (.map [], rest)
      | rest => (entries? fuel rest).map fun (entries, rest) => (.map entries, rest)
    | _ => number? cs

/-- The entries of a mapping, of which there is one at least, and what stands behind its closing
bracket. -/
def entries? : (fuel : Nat) → List Char → Option (List (String × Value) × List Char)
  | 0, _ => none
  | fuel + 1, cs =>
    (pair? (value? fuel) cs).bind fun (entry, rest) =>
      match skip rest with
      | ',' :: rest =>
        (entries? fuel (skip rest)).map fun (entries, rest) => (entry :: entries, rest)
      | '\x7d' :: rest => some ([entry], rest)
      | _ => none

end

/-- The value that a text spells, with white space around it. -/
def read? (s : String) : Option Value :=
  match value? (s.length + 1) (skip s.toList) with
  | some (v, rest) => if (skip rest).isEmpty then some v else none
  | none => none

/-! ## Units -/

theorem ofUnits?_utf16Units (c : Char) (rest : List Nat) :
    ofUnits? (utf16Units c ++ rest) = (ofUnits? rest).map (c :: ·) := by
  have hvalid : c.toNat < 0xD800 ∨ 0xDFFF < c.toNat ∧ c.toNat < 0x110000 := c.valid
  simp only [utf16Units]
  split
  · next hn =>
    have hunit : c.toNat < 0xD800 ∨ 0xE000 ≤ c.toNat := by omega
    rw [List.singleton_append, ofUnits?.eq_def]
    simp only [if_pos hunit, Char.ofNat_toNat]
  · next hn =>
    have hunit : ¬(0xD800 + (c.toNat - 0x10000) / 0x400 < 0xD800 ∨
        0xE000 ≤ 0xD800 + (c.toNat - 0x10000) / 0x400) := by omega
    have hhigh : ¬0xDC00 ≤ 0xD800 + (c.toNat - 0x10000) / 0x400 := by omega
    have hlow : 0xDC00 ≤ 0xDC00 + (c.toNat - 0x10000) % 0x400 ∧
        0xDC00 + (c.toNat - 0x10000) % 0x400 < 0xE000 := by omega
    have hsum : 0x10000 + (0xD800 + (c.toNat - 0x10000) / 0x400 - 0xD800) * 0x400 +
        (0xDC00 + (c.toNat - 0x10000) % 0x400 - 0xDC00) = c.toNat := by omega
    rw [List.cons_append, List.singleton_append, ofUnits?.eq_def]
    simp only [if_neg hunit, if_neg hhigh, if_pos hlow, hsum, Char.ofNat_toNat]

theorem ofUnits?_flatMap (cs : List Char) : ofUnits? (cs.flatMap utf16Units) = some cs := by
  induction cs with
  | nil => rfl
  | cons c cs ih =>
    rw [List.flatMap_cons, ofUnits?_utf16Units, ih]
    rfl

/-! ## Escapes -/

theorem digitValue?_digitChar {d : Nat} (h : d < 16) :
    Hex.digitValue? (Nat.digitChar d) = some d := by
  have hall : ∀ e : Fin 16, Hex.digitValue? (Nat.digitChar e) = some e.val := by decide
  exact hall ⟨d, h⟩

theorem toList_hexDigits_one {n : Nat} (h : n < 16) :
    (Text.hexDigits 1 n).toList = [Nat.digitChar n] := by
  rw [Text.hexDigits, String.toList_ofList, Nat.toDigits_of_lt_base h]
  rfl

/-- The last digit apart, as long as there is room for another one. -/
theorem toList_hexDigits_succ (width n : Nat) :
    (Text.hexDigits (width + 2) n).toList =
      (Text.hexDigits (width + 1) (n / 16)).toList ++ [Nat.digitChar (n % 16)] := by
  rw [Text.hexDigits, Text.hexDigits, String.toList_ofList, String.toList_ofList]
  by_cases hn : n < 16
  · have hzero : n / 16 = 0 := Nat.div_eq_of_lt hn
    rw [hzero, Nat.mod_eq_of_lt hn, Nat.toDigits_of_lt_base hn]
    show List.replicate (width + 1) '0' ++ [n.digitChar] =
      List.replicate width '0' ++ ['0'] ++ [n.digitChar]
    rw [List.replicate_succ']
  · have hroom : width + 2 - ((Nat.toDigits 16 (n / 16)).length + 1) =
        width + 1 - (Nat.toDigits 16 (n / 16)).length := by omega
    rw [Nat.toDigits_eq_if (by decide), if_neg hn, List.length_append, List.length_singleton, hroom,
      List.append_assoc]

/-- A unit has four digits, which spell it. -/
theorem exists_digits {unit : Nat} (h : unit < 0x10000) :
    ∃ a b c d, (Text.hexDigits 4 unit).toList = [a, b, c, d] ∧
      Hex.number? [a, b, c, d] = some unit := by
  have hdigits : (Text.hexDigits 4 unit).toList = [Nat.digitChar (unit / 16 / 16 / 16),
      Nat.digitChar (unit / 16 / 16 % 16), Nat.digitChar (unit / 16 % 16),
      Nat.digitChar (unit % 16)] := by
    rw [toList_hexDigits_succ, toList_hexDigits_succ, toList_hexDigits_succ,
      toList_hexDigits_one (by omega)]
    rfl
  have ha : unit / 16 / 16 / 16 < 16 := by omega
  have hb : unit / 16 / 16 % 16 < 16 := Nat.mod_lt _ (by decide)
  have hc : unit / 16 % 16 < 16 := Nat.mod_lt _ (by decide)
  have hd : unit % 16 < 16 := Nat.mod_lt _ (by decide)
  refine ⟨_, _, _, _, hdigits, ?_⟩
  simp only [Hex.number?, List.isEmpty_cons, List.all_cons, List.all_nil, Hex.isDigit,
    digitValue?_digitChar ha, digitValue?_digitChar hb, digitValue?_digitChar hc,
    digitValue?_digitChar hd, Option.isSome_some, List.foldl_cons, List.foldl_nil,
    Option.getD_some, Bool.and_self, Bool.not_true, Bool.or_self, Bool.false_eq_true, ↓reduceIte,
    Option.some.injEq]
  omega

/-- An escaped unit is read as the unit. -/
theorem units?_unit {unit : Nat} (h : unit < 0x10000) (rest : List Char) :
    units? ('\\' :: 'u' :: (Text.hexDigits 4 unit).toList ++ rest) =
      (units? rest).map fun (units, rest) => (unit :: units, rest) := by
  obtain ⟨a, b, c, d, hdigits, hnumber⟩ := exists_digits h
  rw [hdigits]
  show units? ('\\' :: 'u' :: a :: b :: c :: d :: rest) = _
  rw [units?, hnumber, Option.bind_some]

theorem lt_of_mem_utf16Units {c : Char} : ∀ unit ∈ utf16Units c, unit < 0x10000 := by
  have hvalid : c.toNat < 0xD800 ∨ 0xDFFF < c.toNat ∧ c.toNat < 0x110000 := c.valid
  simp only [utf16Units]
  split
  · next hn => simpa using hn
  · simp only [List.mem_cons, List.not_mem_nil, or_false, forall_eq_or_imp, forall_eq]
    omega

theorem units?_escapedUnits {units : List Nat} (h : ∀ unit ∈ units, unit < 0x10000)
    (rest : List Char) :
    units? ((String.join (units.map fun unit => "\\u" ++ Text.hexDigits 4 unit)).toList ++ rest) =
      (units? rest).map fun (more, rest) => (units ++ more, rest) := by
  induction units with
  | nil =>
    show units? rest = (units? rest).map id
    rw [Option.map_id, id]
  | cons unit units ih =>
    obtain ⟨hunit, hunits⟩ := List.forall_mem_cons.mp h
    rw [List.map_cons, String.join_cons, String.toList_append, String.toList_append,
      List.append_assoc]
    show units? ('\\' :: 'u' :: (Text.hexDigits 4 unit).toList ++ _) = _
    rw [units?_unit hunit, ih hunits, Option.map_map]
    rfl

/-- A character inside a text is read as its units. -/
theorem units?_jsonEscaped (c : Char) (rest : List Char) :
    units? ((jsonEscaped c).toList ++ rest) =
      (units? rest).map fun (units, rest) => (utf16Units c ++ units, rest) := by
  unfold jsonEscaped
  split
  all_goals try rfl
  next hquote hslash _ _ _ _ _ =>
    split
    · rw [String.toList_singleton, List.singleton_append, units?]
      · exact hquote
      · intro a b c d rest h
        exact absurd h hslash
      · intro c rest h
        exact absurd h hslash
    · exact units?_escapedUnits lt_of_mem_utf16Units rest

theorem units?_escapedChars (cs rest : List Char) :
    units? ((String.join (cs.map jsonEscaped)).toList ++ '"' :: rest) =
      some (cs.flatMap utf16Units, rest) := by
  induction cs with
  | nil => rfl
  | cons c cs ih =>
    rw [List.map_cons, String.join_cons, String.toList_append, List.append_assoc,
      units?_jsonEscaped, ih]
    rfl

/-! ## Tokens -/

/-- A text between quotes is read as the text. -/
theorem exists_jsonQuoted (s : String) :
    ∃ body, (jsonQuoted s).toList = '"' :: body ∧
      ∀ rest, text? (body ++ rest) = some (s, rest) := by
  refine ⟨(String.join (s.toList.map jsonEscaped)).toList ++ ['"'], ?_, fun rest => ?_⟩
  · rw [jsonQuoted, String.toList_append, String.toList_append]
    rfl
  · rw [List.append_assoc, List.singleton_append, text?, units?_escapedChars, Option.bind_some]
    simp only [ofUnits?_flatMap, Option.map_some, String.ofList_toList]

theorem skip_jsonBreak (depth : Nat) {c : Char} (h : isBlank c = false) (rest : List Char) :
    skip ((jsonBreak depth).toList ++ c :: rest) = c :: rest := by
  have hblank : ∀ d ∈ (jsonBreak depth).toList, isBlank d = true := by
    intro d hd
    rw [jsonBreak, String.toList_append] at hd
    rcases List.mem_append.mp hd with hd | hd
    · rw [List.mem_singleton.mp hd]
      rfl
    · rw [String.toList_ofList] at hd
      rw [List.eq_of_mem_replicate hd]
      rfl
  rw [skip, List.dropWhile_append_of_pos hblank, List.dropWhile_cons, h]
  rfl

/-- What is read behind an integer is no part of it. -/
def Stops (rest : List Char) : Prop := ∀ c ∈ rest.head?, isNumeric c = false

theorem number?_toString {n : Nat} (h : n < 10 ^ Text.maxDigits) {rest : List Char}
    (hrest : Stops rest) :
    number? ((toString n).toList ++ rest) = some (.int n, rest) := by
  have hdigits : ∀ c ∈ Nat.toDigits 10 n, isNumeric c = true := by
    intro c hc
    rw [isNumeric, Nat.isDigit_of_mem_toDigits (by decide) (by decide) hc, Bool.true_or]
  have hlen : (Nat.toDigits 10 n).length ≤ Text.maxDigits :=
    (Nat.length_toDigits_le_iff (by decide) (by decide)).mpr h
  have hstop : rest.takeWhile isNumeric = [] ∧ rest.dropWhile isNumeric = rest := by
    cases rest with
    | nil => exact ⟨rfl, rfl⟩
    | cons c rest =>
      have hc := hrest c rfl
      exact ⟨by rw [List.takeWhile_cons, hc]; rfl, by rw [List.dropWhile_cons, hc]; rfl⟩
  rw [number?, Nat.toString_eq_ofList_toDigits, String.toList_ofList,
    List.takeWhile_append_of_pos hdigits, List.dropWhile_append_of_pos hdigits, hstop.1, hstop.2,
    List.append_nil, Text.readPlainInt_toDigits hlen]

/-! ## Values -/

/-- A value that is made of texts, of numbers that are not too long to be read, and of mappings. -/
inductive IsListed : Value → Prop
  | text (s : String) : IsListed (.text s)
  | number {n : Nat} (h : n < 10 ^ Text.maxDigits) : IsListed (.int n)
  | map {entries : List (String × Value)} (h : ∀ entry ∈ entries, IsListed entry.2) :
      IsListed (.map entries)

/-- The value is read back wherever its text stands, which starts with no white space, if the fuel
reaches beyond it. -/
structure ReadsBack (v : Value) : Prop where
  head (depth : Nat) : ∃ c body, (v.json depth).toList = c :: body ∧ isBlank c = false
  read (depth fuel : Nat) (rest : List Char) (hfuel : (v.json depth).length < fuel)
    (hrest : Stops rest) : value? fuel ((v.json depth).toList ++ rest) = some (v, rest)

theorem exists_succ_of_lt {length fuel : Nat} (h : length < fuel) :
    ∃ more, fuel = more + 1 ∧ length ≤ more :=
  ⟨fuel - 1, by omega, by omega⟩

theorem ReadsBack.skip {v : Value} (h : ReadsBack v) (depth : Nat) (rest : List Char) :
    skip ((v.json depth).toList ++ rest) = (v.json depth).toList ++ rest := by
  obtain ⟨c, body, hbody, hc⟩ := h.head depth
  rw [hbody, List.cons_append, Json.skip, List.dropWhile_cons, hc]
  rfl

theorem readsBack_text (s : String) : ReadsBack (.text s) := by
  obtain ⟨body, hbody, hread⟩ := exists_jsonQuoted s
  refine ⟨fun depth => ⟨'"', body, hbody, rfl⟩, fun depth fuel rest hfuel _ => ?_⟩
  obtain ⟨fuel, rfl, -⟩ := exists_succ_of_lt hfuel
  rw [Value.json, hbody, List.cons_append, value?, hread]
  rfl

theorem readsBack_number {n : Nat} (h : n < 10 ^ Text.maxDigits) : ReadsBack (.int n) := by
  obtain ⟨c, cs, hdigits⟩ := List.exists_cons_of_ne_nil (Nat.toDigits_ne_nil (n := n) (b := 10))
  have hjson (depth : Nat) : (Value.int n).json depth = toString n := rfl
  have htext : (toString n).toList = c :: cs := by
    rw [Nat.toString_eq_ofList_toDigits, String.toList_ofList, hdigits]
  have hc : c.isDigit = true :=
    Nat.isDigit_of_mem_toDigits (by decide) (by decide) (hdigits ▸ List.mem_cons_self)
  refine ⟨fun depth => ⟨c, cs, hjson depth ▸ htext, ?_⟩, fun depth fuel rest hfuel hrest => ?_⟩
  · cases hblank : isBlank c with
    | false => rfl
    | true =>
      simp only [isBlank, Bool.or_eq_true, beq_iff_eq] at hblank
      rcases hblank with ((rfl | rfl) | rfl) | rfl
      all_goals exact absurd hc (by decide)
  · obtain ⟨fuel, rfl, -⟩ := exists_succ_of_lt hfuel
    have hread := number?_toString h hrest
    rw [hjson]
    rw [htext, List.cons_append] at hread ⊢
    rw [value?]
    · exact hread
    · rintro rest heq
      rw [(List.cons.inj heq).1] at hc
      exact absurd hc (by decide)
    · rintro rest heq
      rw [(List.cons.inj heq).1] at hc
      exact absurd hc (by decide)

/-! ### Mappings -/

/-- The text of an entry. -/
def entryText (depth : Nat) (entry : String × Value) : String :=
  jsonQuoted entry.1 ++ ": " ++ entry.2.json depth

theorem pair?_entryText {entry : String × Value} (h : ReadsBack entry.2) {depth fuel : Nat}
    (hfuel : (entryText depth entry).length < fuel + 1) {rest : List Char} (hrest : Stops rest) :
    pair? (value? fuel) ((entryText depth entry).toList ++ rest) = some (entry, rest) := by
  obtain ⟨body, hbody, hread⟩ := exists_jsonQuoted entry.1
  have hshort : (entry.2.json depth).length < fuel := by
    simp only [entryText, String.length_append] at hfuel
    have : (": " : String).length = 2 := rfl
    omega
  have htext : (entryText depth entry).toList ++ rest =
      '"' :: (body ++ (':' :: ' ' :: ((entry.2.json depth).toList ++ rest))) := by
    rw [entryText, String.toList_append, String.toList_append, hbody, List.append_assoc,
      List.append_assoc]
    rfl
  have hblank : skip (' ' :: ((entry.2.json depth).toList ++ rest)) =
      (entry.2.json depth).toList ++ rest := h.skip depth rest
  rw [htext, pair?, hread, Option.bind_some]
  show (value? fuel (skip (' ' :: ((entry.2.json depth).toList ++ rest)))).map _ = _
  rw [hblank, h.read depth fuel rest hshort hrest]
  rfl

theorem jsonEntries_eq_map (depth : Nat) (entries : List (String × Value)) :
    jsonEntries depth entries = entries.map (entryText depth) := by
  induction entries with
  | nil => rfl
  | cons entry entries ih =>
    rw [jsonEntries, ih]
    rfl

/-- The texts of entries, each on a line of its own. -/
def entriesText (depth : Nat) (entries : List (String × Value)) : String :=
  ("," ++ jsonBreak depth).intercalate (entries.map (entryText depth))

theorem entriesText_singleton (depth : Nat) (entry : String × Value) :
    entriesText depth [entry] = entryText depth entry :=
  String.intercalate_singleton

theorem entriesText_cons (depth : Nat) (entry : String × Value) {entries : List (String × Value)}
    (h : entries ≠ []) :
    entriesText depth (entry :: entries) =
      entryText depth entry ++ ("," ++ jsonBreak depth) ++ entriesText depth entries := by
  rw [entriesText, List.map_cons, String.intercalate_cons_of_ne_nil (by simpa using h), entriesText]

theorem exists_entriesText (depth : Nat) {entries : List (String × Value)} (h : entries ≠ []) :
    ∃ body, (entriesText depth entries).toList = '"' :: body := by
  obtain ⟨entry, more, rfl⟩ := List.exists_cons_of_ne_nil h
  obtain ⟨body, hbody, -⟩ := exists_jsonQuoted entry.1
  have hentry : ∃ body, (entryText depth entry).toList = '"' :: body := by
    rw [entryText, String.toList_append, String.toList_append, hbody]
    exact ⟨_, rfl⟩
  obtain ⟨body, hbody⟩ := hentry
  cases more with
  | nil => exact ⟨body, by rw [entriesText_singleton, hbody]⟩
  | cons next more =>
    rw [entriesText_cons depth entry (List.cons_ne_nil next more), String.toList_append,
      String.toList_append, hbody]
    exact ⟨_, rfl⟩

theorem stops_jsonBreak (depth : Nat) (rest : List Char) :
    Stops ((jsonBreak depth).toList ++ rest) := by
  rw [jsonBreak, String.toList_append]
  rintro c ⟨⟩
  rfl

/-- The entries are read in front of a closing bracket on a line of its own. -/
theorem entries?_entriesText {depth fuel : Nat} {entries : List (String × Value)}
    (hne : entries ≠ []) (h : ∀ entry ∈ entries, ReadsBack entry.2)
    (hfuel : (entriesText depth entries).length < fuel) (outer : Nat) (rest : List Char) :
    entries? fuel ((entriesText depth entries).toList ++
      ((jsonBreak outer).toList ++ '\x7d' :: rest)) = some (entries, rest) := by
  induction entries generalizing fuel with
  | nil => exact absurd rfl hne
  | cons entry more ih =>
    obtain ⟨hentry, hmore⟩ := List.forall_mem_cons.mp h
    obtain ⟨fuel, rfl, -⟩ := exists_succ_of_lt hfuel
    by_cases hlast : more = []
    · subst hlast
      rw [entriesText_singleton] at hfuel ⊢
      rw [entries?, pair?_entryText hentry hfuel (stops_jsonBreak outer _), Option.bind_some]
      simp only [skip_jsonBreak outer (c := '\x7d') rfl]
    · obtain ⟨body, hbody⟩ := exists_entriesText depth hlast
      rw [entriesText_cons depth entry hlast, String.length_append, String.length_append,
        String.length_append] at hfuel
      have hone : ("," : String).length = 1 := rfl
      have hless : (entriesText depth more).length < fuel := by omega
      have hrest := ih hlast hmore hless
      have htail : (entriesText depth (entry :: more)).toList ++
          ((jsonBreak outer).toList ++ '\x7d' :: rest) =
        (entryText depth entry).toList ++ (',' :: ((jsonBreak depth).toList ++
          ((entriesText depth more).toList ++ ((jsonBreak outer).toList ++ '\x7d' :: rest)))) := by
        rw [entriesText_cons depth entry hlast]
        simp only [String.toList_append, List.append_assoc]
        rfl
      have hskip : skip ((jsonBreak depth).toList ++
          ((entriesText depth more).toList ++ ((jsonBreak outer).toList ++ '\x7d' :: rest))) =
            (entriesText depth more).toList ++ ((jsonBreak outer).toList ++ '\x7d' :: rest) := by
        rw [hbody]
        exact skip_jsonBreak depth rfl _
      have hstops : Stops (',' :: ((jsonBreak depth).toList ++
          ((entriesText depth more).toList ++ ((jsonBreak outer).toList ++ '\x7d' :: rest)))) := by
        rintro c ⟨⟩
        rfl
      rw [htail, entries?, pair?_entryText hentry (by omega) hstops, Option.bind_some]
      show (entries? fuel (skip _)).map _ = _
      rw [hskip, hrest]
      rfl

theorem toList_json_map_nil (depth : Nat) :
    ((Value.map []).json depth).toList = ['\x7b', '\x7d'] := by
  rw [Value.json, jsonEntries]
  simp [jsonBlock]

theorem json_map_of_ne_nil (depth : Nat) {entries : List (String × Value)} (h : entries ≠ []) :
    (Value.map entries).json depth = "\x7b" ++ jsonBreak (depth + 1) ++
      entriesText (depth + 1) entries ++ jsonBreak depth ++ "\x7d" := by
  have hparts : (jsonEntries (depth + 1) entries).isEmpty = false := by
    rw [jsonEntries_eq_map, List.isEmpty_map]
    exact List.isEmpty_eq_false_iff.mpr h
  rw [Value.json, jsonBlock, hparts, jsonEntries_eq_map]
  rfl

theorem readsBack_map {entries : List (String × Value)}
    (h : ∀ entry ∈ entries, ReadsBack entry.2) : ReadsBack (.map entries) := by
  by_cases hne : entries = []
  · subst hne
    refine ⟨fun depth => ⟨_, _, toList_json_map_nil depth, rfl⟩,
      fun depth fuel rest hfuel hrest => ?_⟩
    obtain ⟨fuel, rfl, -⟩ := exists_succ_of_lt hfuel
    rw [toList_json_map_nil]
    rfl
  · refine ⟨fun depth => ?_, fun depth fuel rest hfuel hrest => ?_⟩
    · rw [json_map_of_ne_nil depth hne]
      simp only [String.toList_append, List.append_assoc]
      exact ⟨'\x7b', _, rfl, rfl⟩
    · obtain ⟨fuel, rfl, hle⟩ := exists_succ_of_lt hfuel
      obtain ⟨body, hbody⟩ := exists_entriesText (depth + 1) hne
      have hshort : (entriesText (depth + 1) entries).length < fuel := by
        rw [json_map_of_ne_nil depth hne] at hle
        simp only [String.length_append] at hle
        have hone : ("\x7b" : String).length = 1 := rfl
        omega
      have htext : ((Value.map entries).json depth).toList ++ rest =
          '\x7b' :: ((jsonBreak (depth + 1)).toList ++ ((entriesText (depth + 1) entries).toList ++
            ((jsonBreak depth).toList ++ '\x7d' :: rest))) := by
        rw [json_map_of_ne_nil depth hne]
        simp only [String.toList_append, List.append_assoc]
        rfl
      have hskip : skip ((jsonBreak (depth + 1)).toList ++
          ((entriesText (depth + 1) entries).toList ++
            ((jsonBreak depth).toList ++ '\x7d' :: rest))) =
          '"' :: (body ++ ((jsonBreak depth).toList ++ '\x7d' :: rest)) := by
        rw [hbody]
        exact skip_jsonBreak (depth + 1) rfl _
      have hread := entries?_entriesText hne h hshort depth rest
      rw [hbody, List.cons_append] at hread
      rw [htext, value?, hskip]
      show (entries? fuel _).map _ = _
      rw [hread]
      rfl

/-- The text of a listed value is read as the value, wherever it stands. -/
theorem readsBack_of_isListed {v : Value} (h : IsListed v) : ReadsBack v := by
  induction h with
  | text s => exact readsBack_text s
  | number h => exact readsBack_number h
  | map _ ih => exact readsBack_map ih

/-- A listed value is read back from its text. -/
theorem read?_json {v : Value} (h : IsListed v) : read? (v.json 0) = some v := by
  have hread := readsBack_of_isListed h
  have hskip := hread.skip 0 []
  have hvalue := hread.read 0 ((v.json 0).length + 1) [] (Nat.lt_succ_self _) (by simp [Stops])
  rw [List.append_nil] at hskip hvalue
  rw [read?, hskip, hvalue]
  rfl

end MetaTx.Json
