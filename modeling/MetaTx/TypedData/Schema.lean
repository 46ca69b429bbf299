import MetaTx.Abi
import MetaTx.Value.Literal

/-!
# Types of typed data

A schema defines types by their members. A member has a type of the schema, a basic
type, or an array of one; arrays are told by the brackets at the end of the name. The text
of a type holds its own members, then those of all types that it needs, in the order of
their names. The primary type is the one that no other type needs.
-/

namespace MetaTx.TypedData

/-- Data that does not go with its types. -/
def refused : Error := .encoding .typedData

/-- A member of a type, by its name and the name of its type. -/
structure Member where
  /-- The name, if the definition gives one. -/
  name? : Option Value
  type : String

/-- Types by their names. -/
abbrev Schema := List (String × List Member)

/-! ## Names of types -/

/-- Whether a name is that of an array. -/
def isArray (type : String) : Bool := type.toList.getLast? == some ']'

/-- Whether the brackets at the end of a name, if there are any, are opened somewhere. -/
def isOpened (type : String) : Bool := !isArray type || type.toList.contains '['

/-- The name without any brackets. -/
def coreName (type : String) : String :=
  if isArray type then String.ofList (type.toList.takeWhile (· != '[')) else type

/-- The name without its last pair of brackets. -/
def itemName (type : String) : String :=
  String.ofList ((type.toList.reverse.dropWhile (· != '[')).drop 1).reverse

/-- A size in decimal digits without leading zeros. -/
def size? (cs : List Char) : Option Nat :=
  if cs.all Char.isDigit && !cs.isEmpty && cs.head? != some '0' then
    some (cs.foldl (fun n c => n * 10 + (c.toNat - 48)) 0)
  else none

/-- The bits of an integer type behind its name, 256 if it does not say. -/
def bits? (cs : List Char) : Option Nat :=
  if cs.isEmpty then some 256
  else match size? cs with
    | some n => if n % 8 = 0 && n ≤ 256 then some n else none
    | none => none

/-- The layout of a basic type; texts are laid out as bytes. -/
def basic? (type : String) : Option AbiType :=
  match type.toList with
  | 'b' :: 'o' :: 'o' :: 'l' :: [] => some .bool
  | 'a' :: 'd' :: 'd' :: 'r' :: 'e' :: 's' :: 's' :: [] => some .address
  | 's' :: 't' :: 'r' :: 'i' :: 'n' :: 'g' :: [] => some .bytes
  | 'b' :: 'y' :: 't' :: 'e' :: 's' :: [] => some .bytes
  | 'b' :: 'y' :: 't' :: 'e' :: 's' :: digits =>
    match size? digits with
    | some n => if n ≤ 32 then some (.word n) else none
    | none => none
  | 'i' :: 'n' :: 't' :: digits => (bits? digits).map .int
  | 'u' :: 'i' :: 'n' :: 't' :: digits => (bits? digits).map .uint
  | _ => none

def isBasic (type : String) : Bool := (basic? type).isSome

/-! ## Reading a schema -/

/-- The definitions in a list of members. -/
def readMember : Value → Except Error Member
  | .map entries =>
    match Value.get? "type" entries with
    | some (.text type) =>
      if isOpened type then .ok ⟨Value.get? "name" entries, type⟩ else .error refused
    | some (.bytes _) | none => .error refused
    | some _ => .error (.fault .noEntries)
  | _ => .error refused

/-- The members of a type. -/
def readMembers : Value → Except Error (List Member)
  | .list items => items.mapM readMember
  | .text "" | .bytes [] | .map [] => .ok []
  | _ => .error refused

def readSchema (types : List (String × Value)) : Except Error Schema :=
  types.mapM fun (name, members) => return (name, ← readMembers members)

/-! ## Needed types -/

/-- The names of the types that a type mentions, without those of basic ones. -/
def mentioned (schema : Schema) (type : String) : List String :=
  (((schema.lookup type).getD []).map fun m => coreName m.type).filter (!isBasic ·)

/-- Adds what the types found so far mention, at most `n` times over. -/
def closure (schema : Schema) : (n : Nat) → (found : List String) → List String
  | 0, found => found
  | n + 1, found =>
    let more := ((found.flatMap (mentioned schema)).filter (!found.contains ·)).eraseDups
    if more.isEmpty then found else closure schema n (found ++ more)

/-- All types that a type needs, itself among them unless its name is that of a basic
type. Every one is to be defined. -/
def needed (schema : Schema) (type : String) : Except Error (List String) :=
  let core := coreName type
  let found := closure schema (schema.length + 1) (if isBasic core then [] else [core])
  if isOpened type && found.all fun name => (schema.lookup name).isSome then .ok found
  else .error refused

/-- The text of one type. -/
def typeText (schema : Schema) (type : String) : Except Error String := do
  let members ← ((schema.lookup type).getD []).mapM fun m =>
    match m.name? with
    | some name => .ok (m.type ++ " " ++ name.display)
    | none => .error refused
  return type ++ "(" ++ ",".intercalate members ++ ")"

/-- The text of a type with all that it needs. -/
def encodeType (schema : Schema) (type : String) : Except Error String := do
  let found ← needed schema type
  let others := (found.filter (· != type)).mergeSort fun a b => a < b || a == b
  return String.join (← (type :: others).mapM (typeText schema))

/-- The hash of the text of a type. -/
def typeHash (schema : Schema) (type : String) : Except Error Bytes := do
  return keccakText (← encodeType schema type)

/-- The one type that no other type mentions. -/
def primaryType (schema : Schema) : Except Error String :=
  let isMentioned (name : String) : Bool :=
    schema.any fun (other, members) =>
      other != name && members.any fun m => coreName m.type == name
  match (schema.map Prod.fst).filter (!isMentioned ·) with
  | [name] => .ok name
  | _ => .error refused

end MetaTx.TypedData
