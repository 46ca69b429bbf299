import MetaTx.Text.Blank

/-!
# Files of variables

A file binds names to values, one binding a line: `name=value`, perhaps behind `export`,
and perhaps with a comment behind `#`. Values can be quoted, and then hold line breaks and
escapes. A line that cannot be read is left out. A mark of the byte order in front is no part
of the file, and each of the three line breaks is one line feed. Values can refer to variables as
`${name}` or `${name:-default}`, to those bound before or else to the surrounding ones.
-/

namespace MetaTx.EnvFile

/-- A name with its value; a name without `=` has none. -/
structure Binding where
  name : String
  value? : Option String

/-- A text with a line feed for each of its line breaks. -/
def unifyBreaks : List Char → List Char
  | [] => []
  | '\r' :: '\n' :: rest => '\n' :: unifyBreaks rest
  | c :: rest => (if c = '\r' then '\n' else c) :: unifyBreaks rest

/-- The characters of a file without a mark of the byte order. -/
def content (s : String) : List Char :=
  match s.toList with
  | '\uFEFF' :: rest => unifyBreaks rest
  | cs => unifyBreaks cs

/-! ## Pieces of a line -/

def isBreak (c : Char) : Bool := c == '\n'

/-- A blank that ends no line. -/
def isInner (c : Char) : Bool := Text.isBlank c && !isBreak c

/-- Drops the word `export` with the blanks behind it. -/
def dropExport (cs : List Char) : List Char :=
  let rest := cs.drop "export".length
  if "export".toList.isPrefixOf cs && (rest.head?.map isInner).getD false then
    rest.dropWhile isInner
  else cs

/-- What stands up to the closing quote, and what follows it. A character behind a backslash
closes nothing. -/
def quotedBody? (quote : Char) : List Char → Option (List Char × List Char)
  | [] => none
  | ['\\'] => none
  | '\\' :: c :: rest =>
    (quotedBody? quote rest).map fun (body, after) => ('\\' :: c :: body, after)
  | c :: rest =>
    if c = quote then some ([], rest)
    else (quotedBody? quote rest).map fun (body, after) => (c :: body, after)

/-- What a character stands for behind a backslash in single quotes. -/
def singleEscape? : Char → Option Char
  | '\\' => some '\\'
  | '\'' => some '\''
  | _ => none

/-- What a character stands for behind a backslash in double quotes. -/
def doubleEscape? : Char → Option Char
  | '\\' => some '\\'
  | '\'' => some '\''
  | '"' => some '"'
  | 'a' => some '\x07'
  | 'b' => some '\x08'
  | 'f' => some '\x0c'
  | 'n' => some '\n'
  | 'r' => some '\r'
  | 't' => some '\t'
  | 'v' => some '\x0b'
  | _ => none

/-- A text with its escapes replaced. -/
def unescape (escape? : Char → Option Char) : List Char → List Char
  | [] => []
  | [c] => [c]
  | c :: d :: rest =>
    match if c = '\\' then escape? d else none with
    | some e => e :: unescape escape? rest
    | none => c :: unescape escape? (d :: rest)

/-- A line up to the first `#` behind a blank. -/
def beforeComment : (afterBlank : Bool) → List Char → List Char
  | _, [] => []
  | afterBlank, c :: rest =>
    if afterBlank && c == '#' then [] else c :: beforeComment (Text.isBlank c) rest

/-! ## Lines

A reader gives what it read and what follows, or fails where it cannot go on. -/

/-- Reads a name, if there is one before the comment. -/
def readName : List Char → Except (List Char) (Option String × List Char)
  | '#' :: rest => .ok (none, '#' :: rest)
  | '\'' :: rest =>
    let name := rest.takeWhile (· != '\'')
    match rest.drop name.length with
    | _ :: after =>
      if name.isEmpty then .error ('\'' :: rest) else .ok (some (String.ofList name), after)
    | [] => .error ('\'' :: rest)
  | cs =>
    let name := cs.takeWhile fun c => !Text.isBlank c && c != '=' && c != '#'
    if name.isEmpty then .error cs else .ok (some (String.ofList name), cs.drop name.length)

/-- Reads a value behind `=` and blanks. A comment can follow the blanks at once where there
are any. -/
def readValue (afterBlank : Bool) : List Char → Except (List Char) (String × List Char)
  | '\'' :: rest =>
    match quotedBody? '\'' rest with
    | some (body, after) => .ok (String.ofList (unescape singleEscape? body), after)
    | none => .error ('\'' :: rest)
  | '"' :: rest =>
    match quotedBody? '"' rest with
    | some (body, after) => .ok (String.ofList (unescape doubleEscape? body), after)
    | none => .error ('"' :: rest)
  | cs =>
    let line := cs.takeWhile (!isBreak ·)
    let value := Text.dropTrailing Text.isBlank (beforeComment afterBlank line)
    .ok (String.ofList value, cs.drop line.length)

/-- Drops a comment. -/
def dropComment (cs : List Char) : List Char :=
  match cs.dropWhile isInner with
  | '#' :: rest => rest.dropWhile (!isBreak ·)
  | _ => cs

/-- Reads the end of a line. -/
def readEnd (cs : List Char) : Except (List Char) (List Char) :=
  match cs.dropWhile isInner with
  | [] => .ok []
  | c :: rest => if isBreak c then .ok rest else .error cs

/-- Reads a line with its binding, if it has one. -/
def readLine (cs : List Char) : Except (List Char) (Option Binding × List Char) := do
  let (name?, cs) ← readName (dropExport cs)
  let (value?, cs) ← match cs.dropWhile isInner with
    | '=' :: rest => do
      let blankFirst := (rest.head?.map isInner).getD false
      let (value, after) ← readValue blankFirst (rest.dropWhile isInner)
      pure (some value, after)
    | rest => pure (none, rest)
  let cs ← readEnd (dropComment cs)
  return (name?.map (⟨·, value?⟩), cs)

/-- What follows the line that could not be read. -/
def afterLine (cs : List Char) : List Char := (cs.dropWhile (!isBreak ·)).drop 1

/-- The bindings of at most `n` lines. -/
def readLines : (n : Nat) → List Char → List Binding
  | 0, _ => []
  | n + 1, cs =>
    let cs := cs.dropWhile Text.isBlank
    if cs.isEmpty then []
    else match readLine cs with
      | .ok (binding?, rest) => binding?.toList ++ readLines n rest
      | .error rest => readLines n (afterLine rest)

/-- The bindings of a file. Every line that is read has a character at least. -/
def bindings (s : String) : List Binding := readLines (s.length + 1) (content s)

/-! ## References -/

/-- A reference behind `$\{`: the name, the default, and what follows. -/
def reference? (cs : List Char) : Option (String × String × List Char) :=
  let name := cs.takeWhile fun c => c != '}' && c != ':'
  match cs.drop name.length with
  | '}' :: rest => some (String.ofList name, "", rest)
  | ':' :: '-' :: rest =>
    let default := rest.takeWhile (· != '}')
    match rest.drop default.length with
    | _ :: after => some (String.ofList name, String.ofList default, after)
    | [] => none
  | _ => none

/-- The names that a text refers to. -/
def referred : List Char → List String
  | [] => []
  | c :: rest =>
    let here := match c, rest with
      | '$', '{' :: cs => ((reference? cs).map Prod.fst).toList
      | _, _ => []
    here ++ referred rest

/-- A value with its references replaced, at most `n` characters of it. -/
def expand (find? : String → Option String) : (n : Nat) → List Char → List Char
  | 0, _ => []
  | _, [] => []
  | n + 1, '$' :: '{' :: rest =>
    match reference? rest with
    | some (name, default, after) =>
      ((find? name).getD default).toList ++ expand find? n after
    | none => '$' :: expand find? n ('{' :: rest)
  | n + 1, c :: rest => c :: expand find? n rest

/-- The values of bindings in their order, each referring to those before it. A name that
has no value stands for the empty text. -/
def resolve (outer : String → Option String) :
    (before : List (String × Option String)) → List Binding → List (String × Option String)
  | before, [] => before.reverse
  | before, b :: rest =>
    let find? (name : String) : Option String :=
      match before.lookup name with
      | some value? => some (value?.getD "")
      | none => outer name
    let value? := b.value?.map fun v => String.ofList (expand find? v.length v.toList)
    resolve outer ((b.name, value?) :: before) rest

/-- The variables that a file binds, in the order of its lines. -/
def assignments (outer : String → Option String) (s : String) : List (String × Option String) :=
  resolve outer [] (bindings s)

end MetaTx.EnvFile
