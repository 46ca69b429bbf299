import MetaTx.Text.Integer

/-!
# Command lines

A command line is a list of arguments, most of which name options. An option has a long
name behind two dashes, of which the start will do if no other name starts like this, and
a value, which is the next argument or stands behind `=` in the same one. Options without
a value are flags; a flag can have a letter too, and letters can be joined behind one dash,
also with `=` behind the first.

What an argument says is read first, one argument at a time. An argument that starts with a
dash is still no option if it is a negative number or has a blank in it. After that the
settings are told in order, up to the first argument that cannot be taken.
-/

namespace MetaTx.CommandLine

/-- The options of a command line. -/
structure Grammar (α : Type) where
  /-- The long names, without their dashes. -/
  names : List (String × α)
  /-- The letters of flags. -/
  letters : List (Char × α)
  takesValue : α → Bool

/-- Why a command line is refused. -/
inductive Refusal
  | ambiguous
  | noValue
  | spareValue
  /-- A value that is no integer. -/
  | notInteger
  /-- An argument that belongs to nothing. -/
  | spare
  | missing
  deriving DecidableEq

def Refusal.message : Refusal → String
  | ambiguous => "an option could mean several"
  | noValue => "an option lacks its value"
  | spareValue => "a flag has a value"
  | notInteger => "a value is not an integer"
  | spare => "an argument is not known"
  | missing => "a required option is missing"

/-- What an argument says by itself. -/
inductive Argument (α : Type)
  /-- A text that can be a value. -/
  | plain
  /-- An option, with a value if one stands behind `=`. -/
  | option (option : α) (value? : Option String)
  /-- Flags, by their letters. -/
  | flags (flags : List α)
  /-- The letter of a flag, and behind it what is no letter of a flag. -/
  | notFlags
  | ambiguous
  | unknown

/-- What arguments do: they set an option, a flag to nothing, or they belong to nothing. -/
inductive Event (α : Type)
  | set (option : α) (value : String)
  | spare
  | refused (refusal : Refusal)

/-! ## Arguments -/

/-- Whether a text is a negative number in decimal digits, perhaps with a line break behind. -/
def isNegativeNumber (cs : List Char) : Bool :=
  let isDigit (c : Char) : Bool := (Text.digitValue? c).isSome
  match cs with
  | '-' :: rest =>
    let body := if rest.getLast? = some '\n' then rest.dropLast else rest
    match body.dropWhile isDigit with
    | [] => !body.isEmpty
    | '.' :: fraction => !fraction.isEmpty && fraction.all isDigit
    | _ => false
  | _ => false

/-- What precedes the first `=`, and what follows it, if there is one. -/
def splitValue (cs : List Char) : List Char × Option String :=
  let name := cs.takeWhile (· != '=')
  (name, (cs.drop name.length).tail?.map String.ofList)

namespace Grammar

variable {α : Type} (g : Grammar α)

/-- An argument with two dashes, by what follows them: an exact name counts before the
starts of names. -/
def long? (cs : List Char) : Option (Argument α) :=
  match g.names.lookup (String.ofList cs) with
  | some o => some (.option o none)
  | none =>
    let (name, value?) := splitValue cs
    match g.names.lookup (String.ofList name), g.names.filter (name.isPrefixOf ·.1.toList) with
    | some o, _ => some (.option o value?)
    | none, [(_, o)] => some (.option o value?)
    | none, [] => none
    | none, _ => some .ambiguous

/-- The flags whose letters follow the first, if all are letters of flags. -/
def joined? : List Char → Option (List α)
  | ['='] => none
  | '=' :: letters => letters.mapM (g.letters.lookup ·)
  | letters => letters.mapM (g.letters.lookup ·)

/-- An argument with one dash, by its first letter and what follows it. -/
def short? (c : Char) (cs : List Char) : Option (Argument α) :=
  (g.letters.lookup c).map fun first =>
    match g.joined? cs with
    | some others => .flags (first :: others)
    | none => .notFlags

/-- What an argument says that names no option although it starts with a dash. -/
def nameless (cs : List Char) : Argument α :=
  if isNegativeNumber cs || cs.contains ' ' then .plain else .unknown

/-- What an argument says. -/
def read (s : String) : Argument α :=
  match s.toList with
  | ['-', '-'] => .unknown
  | '-' :: '-' :: rest => (g.long? rest).getD (nameless s.toList)
  | '-' :: c :: rest => (g.short? c rest).getD (nameless s.toList)
  | _ => .plain

/-! ## Settings -/

/-- What the arguments set, in order. Behind `--` stand no options. -/
def settings : List String → List (Event α)
  | [] => []
  | "--" :: _ => [.spare]
  | s :: rest =>
    match g.read s with
    | .plain | .unknown => .spare :: settings rest
    | .ambiguous => [.refused .ambiguous]
    | .notFlags => [.refused .spareValue]
    | .flags flags => flags.map (.set · "") ++ settings rest
    | .option o value? =>
      match g.takesValue o, value? with
      | true, some value => .set o value :: settings rest
      | false, none => .set o "" :: settings rest
      | false, some _ => [.refused .spareValue]
      | true, none =>
        match rest with
        | [] => [.refused .noValue]
        | next :: rest =>
          match g.read next with
          | .plain => .set o next :: settings rest
          | _ => [.refused .noValue]

/-- Whether an argument could mean several options. -/
def isAmbiguous (s : String) : Bool :=
  match g.read s with
  | .ambiguous => true
  | _ => false

/-- What a command line sets. Nothing is set if it holds an argument that could mean
several options. -/
def events (args : List String) : List (Event α) :=
  if (args.takeWhile (· != "--")).any g.isAmbiguous then [.refused .ambiguous]
  else g.settings args

end Grammar

end MetaTx.CommandLine
