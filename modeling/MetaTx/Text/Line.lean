/-!
# Lines

A text is cut at line feeds only. What follows the last line feed is a line too,
unless it is empty.
-/

namespace MetaTx.Text

/-- The pieces of a list between the elements of a class, which are dropped. -/
def pieces {α : Type} (p : α → Bool) : List α → List (List α)
  | [] => [[]]
  | c :: cs =>
    match p c, pieces p cs with
    | true, rest => [] :: rest
    | false, [] => [[c]]
    | false, first :: rest => (c :: first) :: rest

/-- The lines of a text; only the last can be dropped for being empty. -/
def lines (cs : List Char) : List (List Char) :=
  let all := pieces (· == '\n') cs
  if all.getLast? = some [] then all.dropLast else all

/-- A line without one carriage return at its end. -/
def dropReturn (line : List Char) : List Char :=
  if line.getLast? = some '\r' then line.dropLast else line

theorem pieces_ne_nil {α : Type} (p : α → Bool) (cs : List α) : pieces p cs ≠ [] := by
  cases cs with
  | nil => simp [pieces]
  | cons c cs =>
    rw [pieces]
    split <;> simp

end MetaTx.Text
