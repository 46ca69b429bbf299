import Mathlib.Data.List.Nodup
import MetaTx.Key.File
import MetaTx.Proofs.Key.Private

/-!
# Key files are read back

A key file may have been written by anyone: with the mark of the checked form or without it, with
line feeds alone or with carriage returns in front of them, and with anything of that or nothing
behind its last line. None of this gets into the keys. They are told in the order of their lines,
and none is taken for the repetition of another, because different keys are different texts.
-/

namespace MetaTx

/-! ## Lines -/

namespace Text

theorem pieces_of_forall {α : Type} {p : α → Bool} {line : List α}
    (h : ∀ c ∈ line, p c = false) : pieces p line = [line] := by
  induction line with
  | nil => rfl
  | cons c line ih =>
    obtain ⟨hc, hline⟩ := List.forall_mem_cons.mp h
    rw [pieces, hc, ih hline]

/-- A piece ends at the first element of the class. -/
theorem pieces_append {α : Type} {p : α → Bool} {line : List α} {last : α} (rest : List α)
    (h : ∀ c ∈ line, p c = false) (hlast : p last = true) :
    pieces p (line ++ last :: rest) = line :: pieces p rest := by
  induction line with
  | nil => rw [List.nil_append, pieces, hlast]
  | cons c line ih =>
    obtain ⟨hc, hline⟩ := List.forall_mem_cons.mp h
    rw [List.cons_append, pieces, hc, ih hline]

theorem lines_of_forall {line : List Char} (hne : line ≠ []) (h : '\n' ∉ line) :
    lines line = [line] := by
  have hpieces : pieces (· == '\n') line = [line] :=
    pieces_of_forall fun c hc => beq_false_of_ne fun heq => h (heq ▸ hc)
  have hkept : ¬[line].getLast? = some [] := by
    rw [List.getLast?_singleton, Option.some.injEq]
    exact hne
  simp only [lines, hpieces, if_neg hkept]

theorem lines_append {line : List Char} (h : '\n' ∉ line) (rest : List Char) :
    lines (line ++ '\n' :: rest) = line :: lines rest := by
  have hpieces : pieces (· == '\n') (line ++ '\n' :: rest) = line :: pieces (· == '\n') rest :=
    pieces_append rest (fun c hc => beq_false_of_ne fun heq => h (heq ▸ hc)) rfl
  -- The last of all pieces is the last of those behind the first line.
  have hne := pieces_ne_nil (· == '\n') rest
  simp only [lines, hpieces, List.getLast?_cons_of_ne_nil hne, List.dropLast_cons_of_ne_nil hne]
  split <;> rfl

theorem dropReturn_of_not_mem {line : List Char} (h : '\r' ∉ line) : dropReturn line = line :=
  if_neg fun hlast => h (List.mem_of_getLast? hlast)

theorem dropReturn_concat (line : List Char) : dropReturn (line ++ ['\r']) = line := by
  rw [dropReturn, if_pos List.getLast?_concat, List.dropLast_concat]

end Text

namespace KeyFile

/-! ## Written files -/

/-- What stands behind the text of a line. -/
inductive Ending
  | nothing
  | feed
  | returnFeed
  /-- A carriage return that no line feed follows. -/
  | bareReturn

namespace Ending

def chars : Ending → List Char
  | nothing => []
  | feed => ['\n']
  | returnFeed => ['\r', '\n']
  | bareReturn => ['\r']

/-- Whether another line can follow. -/
def isBreak : Ending → Bool
  | feed | returnFeed => true
  | nothing | bareReturn => false

end Ending

/-- A key as it is written in a line. -/
structure Line where
  key : PrivateKey
  /-- Whether the mark of the checked form stands in front. -/
  isMarked : Bool
  ending : Ending

def Line.text (line : Line) : String :=
  if line.isMarked then line.key.toChecked else PrivateKey.dropCheckedMark line.key.toChecked

/-- The characters of a file. -/
def written (lines : List Line) : List Char :=
  lines.flatMap fun line => line.text.toList ++ line.ending.chars

/-- The text of a file. -/
def render (lines : List Line) : String := String.ofList (written lines)

/-! ## Texts of keys -/

namespace Line

theorem text_eq (line : Line) :
    line.text = if line.isMarked then line.key.toChecked else line.key.unmarked := by
  rw [text, PrivateKey.dropCheckedMark_toChecked]

theorem ofChecked_text (line : Line) : PrivateKey.ofChecked line.text = .ok line.key := by
  rw [text_eq]
  split
  · exact line.key.ofChecked_toChecked
  · exact line.key.ofChecked_unmarked

/-- Neither the mark nor base 58 has a character of another class. -/
theorem not_mem_text {c : Char} (hmark : c ∉ PrivateKey.checkedMark.toList)
    (halphabet : c ∉ Base58.alphabet) (line : Line) : c ∉ line.text.toList := by
  have hunmarked : c ∉ line.key.unmarked.toList := fun hc =>
    halphabet (Base58.mem_alphabet_of_mem_encodeChecked c hc)
  rw [text_eq]
  split
  · rw [PrivateKey.toChecked_eq, String.toList_append, List.mem_append]
    rintro (hc | hc)
    · exact hmark hc
    · exact hunmarked hc
  · exact hunmarked

theorem feed_not_mem_text (line : Line) : '\n' ∉ line.text.toList :=
  line.not_mem_text (by decide) (by decide)

theorem return_not_mem_text (line : Line) : '\r' ∉ line.text.toList :=
  line.not_mem_text (by decide) (by decide)

theorem text_ne_nil (line : Line) : line.text.toList ≠ [] := by
  intro hnil
  have hread := line.ofChecked_text
  rw [String.toList_eq_nil_iff.mp hnil] at hread
  cases hread

end Line

/-! ## Splitting -/

/-- The line in front is told from what follows it, if anything does. -/
theorem lines_text_append (line : Line) {rest : List Char}
    (h : line.ending.isBreak = true ∨ rest = []) :
    (Text.lines (line.text.toList ++ line.ending.chars ++ rest)).map Text.dropReturn =
      line.text.toList :: (Text.lines rest).map Text.dropReturn := by
  have hfeed := line.feed_not_mem_text
  have hkept := Text.dropReturn_of_not_mem line.return_not_mem_text
  have hreturn : '\n' ∉ line.text.toList ++ ['\r'] := by
    rw [List.mem_append]
    rintro (hc | hc)
    · exact hfeed hc
    · exact absurd hc (by decide)
  have hdropped := Text.dropReturn_concat line.text.toList
  cases hending : line.ending with
  | feed =>
    rw [Ending.chars, List.append_assoc, List.singleton_append, Text.lines_append hfeed,
      List.map_cons, hkept]
  | returnFeed =>
    have hsplit : line.text.toList ++ ['\r', '\n'] ++ rest =
        line.text.toList ++ ['\r'] ++ '\n' :: rest := by simp
    rw [Ending.chars, hsplit, Text.lines_append hreturn, List.map_cons, hdropped]
  | nothing =>
    rw [hending] at h
    obtain rfl : rest = [] := h.resolve_left Bool.false_ne_true
    rw [Ending.chars, List.append_nil, List.append_nil, Text.lines_of_forall line.text_ne_nil hfeed,
      List.map_singleton, hkept]
    rfl
  | bareReturn =>
    rw [hending] at h
    obtain rfl : rest = [] := h.resolve_left Bool.false_ne_true
    rw [Ending.chars, List.append_nil, Text.lines_of_forall (by simp) hreturn, List.map_singleton,
      hdropped]
    rfl

theorem lines_written {lines : List Line}
    (hended : ∀ line ∈ lines.dropLast, line.ending.isBreak = true) :
    (Text.lines (written lines)).map Text.dropReturn = lines.map (·.text.toList) := by
  induction lines with
  | nil => rfl
  | cons line rest ih =>
    have hends : line.ending.isBreak = true ∨ written rest = [] := by
      cases rest with
      | nil => exact .inr rfl
      | cons next rest => exact .inl (hended line (by simp))
    have hrest : ∀ line ∈ rest.dropLast, line.ending.isBreak = true := by
      intro other hother
      cases rest with
      | nil => exact absurd hother List.not_mem_nil
      | cons next rest => exact hended other (List.mem_cons_of_mem line hother)
    have hwritten : written (line :: rest) =
        line.text.toList ++ line.ending.chars ++ written rest := List.flatMap_cons
    rw [hwritten, lines_text_append line hends, ih hrest, List.map_cons]

/-! ## Reading -/

/-- Lines that repeat neither each other nor an earlier one are all read. -/
theorem readLines_texts (n : Nat) {lines : List Line} {seen : List (List Char)}
    (hdistinct : (lines.map (·.text.toList) ++ seen).Nodup) :
    readLines n seen (lines.map (·.text.toList)) = .ok (lines.map Line.key) := by
  induction lines generalizing n seen with
  | nil => rfl
  | cons line rest ih =>
    rw [List.map_cons, List.cons_append, List.nodup_cons] at hdistinct
    have hnew : seen.contains line.text.toList = false := by
      rw [Bool.eq_false_iff, ne_eq, List.contains_iff_mem]
      exact fun hmem => hdistinct.1 (List.mem_append_right _ hmem)
    have hlater := ih (n + 1) (List.nodup_middle.mpr (List.nodup_cons.mpr hdistinct))
    have hkey := line.ofChecked_text
    rw [← String.ofList_toList (s := line.text)] at hkey
    rw [List.map_cons, readLines, hnew, hkey, hlater]
    rfl

/-- Different keys are different texts, however they are written. -/
theorem nodup_texts {lines : List Line} (h : (lines.map Line.key).Nodup) :
    (lines.map (·.text.toList)).Nodup := by
  apply List.Nodup.of_map (fun cs => PrivateKey.ofChecked (String.ofList cs))
  have hkeys : (lines.map (·.text.toList)).map (fun cs => PrivateKey.ofChecked (String.ofList cs)) =
      (lines.map Line.key).map Except.ok := by
    rw [List.map_map, List.map_map]
    apply List.map_congr_left
    intro line _
    show PrivateKey.ofChecked (String.ofList line.text.toList) = .ok line.key
    rw [String.ofList_toList, line.ofChecked_text]
  rw [hkeys]
  exact h.map fun a b hab => Except.ok.inj hab

/-- **A key file gives back the keys that were written.** Any number of different keys, each with its
mark or without, in lines that end in a line feed with or without a carriage return in front, the
last of them also in a carriage return alone or in nothing, are read from the text of the file, and
from the bytes of that text, in their order. -/
theorem read_render {lines : List Line}
    (hended : ∀ line ∈ lines.dropLast, line.ending.isBreak = true)
    (hdistinct : (lines.map Line.key).Nodup) :
    read (render lines) = .ok (lines.map Line.key) ∧
      readBytes (Bytes.ofText (render lines)) = .ok (lines.map Line.key) := by
  have hread : read (render lines) = .ok (lines.map Line.key) := by
    have htexts := nodup_texts hdistinct
    rw [← List.append_nil (lines.map _)] at htexts
    rw [read, render, String.toList_ofList, lines_written hended]
    exact readLines_texts 1 htexts
  refine ⟨hread, ?_⟩
  rw [readBytes, Bytes.toText?_ofText]
  exact hread

/-- Two keys in lines of different kinds, the second of which ends in a carriage return alone. -/
def sampleLines : List Line := [
  ⟨⟨1, by decide, by decide⟩, true, .returnFeed⟩, ⟨⟨2, by decide, by decide⟩, false, .bareReturn⟩]

theorem read_render_sample :
    (∀ line ∈ sampleLines.dropLast, line.ending.isBreak = true) ∧
      (sampleLines.map Line.key).Nodup ∧
      read (render sampleLines) = .ok (sampleLines.map Line.key) ∧
      readBytes (Bytes.ofText (render sampleLines)) = .ok (sampleLines.map Line.key) :=
  have hended : ∀ line ∈ sampleLines.dropLast, line.ending.isBreak = true := by decide
  have hdistinct : (sampleLines.map Line.key).Nodup := by decide
  ⟨hended, hdistinct, read_render hended hdistinct⟩

end KeyFile

end MetaTx
