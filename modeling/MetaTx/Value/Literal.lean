import MetaTx.Value
import MetaTx.Number.Shortest
import MetaTx.Text.Integer
import MetaTx.Text.Quoted

/-!
# Literals

How messages show a value: texts quoted, lists in brackets, mappings in braces. A value that has
an integer of too many digits in it is shown nowhere.
-/

namespace MetaTx.Value

/-- Numbers are positional from a ten-thousandth up to ten to the sixteenth. -/
def floatFormat : Double.Format where
  leastPositional := -4
  firstExponential := 16

mutual

/-- A value as messages show it. -/
def literal : Value → String
  | .null => "None"
  | .bool b => if b then "True" else "False"
  | .int n => toString n
  | .float x => x.toText floatFormat
  | .text s => Text.quoted s
  | .bytes bs => Text.quotedBytes bs
  | .list items => "[" ++ ", ".intercalate (literals items) ++ "]"
  | .map entries => "\x7b" ++ ", ".intercalate (entryLiterals entries) ++ "\x7d"

def literals : List Value → List String
  | [] => []
  | v :: rest => literal v :: literals rest

def entryLiterals : List (String × Value) → List String
  | [] => []
  | (key, v) :: rest => (Text.quoted key ++ ": " ++ literal v) :: entryLiterals rest

end

/-- A value in running text: as its literal, but a text as it is. -/
def display : Value → String
  | .text s => s
  | v => v.literal

mutual

/-- Whether all integers of a value can be written. -/
def isWritable : Value → Bool
  | .int n => Text.isWritable n
  | .list items => areWritable items
  | .map entries => entriesAreWritable entries
  | .null | .bool _ | .float _ | .text _ | .bytes _ => true

def areWritable : List Value → Bool
  | [] => true
  | v :: rest => isWritable v && areWritable rest

def entriesAreWritable : List (String × Value) → Bool
  | [] => true
  | (_, v) :: rest => isWritable v && entriesAreWritable rest

end

end MetaTx.Value
