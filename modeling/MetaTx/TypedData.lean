import MetaTx.Message
import MetaTx.Text.Integer
import MetaTx.TypedData.Schema

/-!
# Typed data

The digest of a message that brings its types with it (EIP-712). Every field is turned
into a value of fixed size by its type: basic values as they are, texts, byte strings,
arrays and nested messages by their hash. Only when all fields of a message are turned are
they laid out, so what the layout refuses is told last.
-/

namespace MetaTx.TypedData

/-- A field that is turned into a value of fixed size. -/
abbrev Field := AbiType × Value

def hashField (hash : Bytes) : Field := (.word 32, .bytes hash)

/-- What stands for a missing message. -/
def zeroField : Field := hashField (List.replicate 32 0)

/-- The layout of turned fields. -/
def layout (fields : List Field) : Except Error Bytes :=
  (Abi.encode (fields.map Prod.fst) (fields.map Prod.snd)).mapError .fault

/-! ## Basic values -/

/-- The digits of a text that has nothing but digits behind `0x`. -/
def markedDigits? (s : String) : Option (List Char) :=
  match s.toList with
  | '0' :: 'x' :: digits => if digits.all Hex.isDigit then some digits else none
  | _ => none

/-- The bytes that a value of a byte string type stands for. Negative numbers count as
zero. -/
def byteString : Value → Except Error Bytes
  | .bytes bs => .ok bs
  | .text s =>
    match markedDigits? s with
    | some digits => .ok ((Hex.decodeDigits? digits).getD [])
    | none => .ok (Bytes.ofText s)
  | .int n => .ok (Bytes.ofNumber n.toNat)
  | .bool b => .ok [if b then 1 else 0]
  | .null | .float _ | .list _ | .map _ => .error refused

/-- The bytes that a value of the text type stands for. -/
def textBytes : Value → Except Error Bytes
  | .text s => .ok (Bytes.ofText s)
  | .int n => if n < 0 then .error refused else .ok (Bytes.ofNumber n.toNat)
  | .bool b => .ok [if b then 1 else 0]
  | .null | .float _ | .bytes _ | .list _ | .map _ => .error refused

/-- The truth value that a value stands for. -/
def truth : Value → Except Error Bool
  | .text s => .ok (s != "" && s != "False" && s != "false" && s != "0")
  | .list items => if items.isEmpty then .ok false else .error refused
  | .map entries => if entries.isEmpty then .ok false else .error refused
  | v => .ok v.isTruthy

/-- The integer that a value of an integer type stands for, if it is a text. -/
def integer : Value → Except Error Value
  | .text s =>
    let read := match markedDigits? s with
      | some digits => (Hex.number? digits).map Int.ofNat
      | none => Text.readInt? s
    match read with
    | some n => .ok (.int n)
    | none => .error refused
  | v => .ok v

/-- A value that is not missing, by its basic type. -/
def basicField (type : String) (v : Value) : Except Error Field := do
  if type == "string" then return hashField (keccak (← textBytes v))
  match basic? type with
  | some .bytes => return hashField (keccak (← byteString v))
  | some (.word n) => return (.word n, .bytes (← byteString v))
  | some .bool => return (.bool, .bool (← truth v))
  | some abi@(.uint _) | some abi@(.int _) => return (abi, ← integer v)
  | some abi => return (abi, v)
  | none => throw refused

/-! ## Messages -/

/-- The entry of a message for a member, null if there is none. -/
def entry (data : Value) (m : Member) : Except Error { v : Value // sizeOf v < sizeOf data } :=
  match data with
  | .map entries =>
    match m.name? with
    | some (.text key) =>
      match h : Value.get? key entries with
      | some v => .ok ⟨v, Value.sizeOf_lt_of_get? h⟩
      | none => .ok ⟨.null, Value.sizeOf_null_lt_map entries⟩
    | some (.list _) | some (.map _) | none => .error refused
    | some _ => .ok ⟨.null, Value.sizeOf_null_lt_map entries⟩
  | _ => .error (.fault .noEntries)

/-- A value of any type, turned into one of fixed size. -/
def field (schema : Schema) (type : String) (v : Value) : Except Error Field := do
  match schema.lookup type with
  | some members =>
    if v matches .null then return zeroField
    let typeHash ← typeHash schema type
    let fields ← members.mapM fun m => do
      let ⟨e, _⟩ ← entry v m
      field schema m.type e
    return hashField (keccak (← layout (hashField typeHash :: fields)))
  | none =>
    match v with
    | .null =>
      if type == "string" || type == "bytes" then return zeroField else throw refused
    | .list items =>
      if isArray type then
        let fields ← items.attach.mapM fun ⟨item, _⟩ => field schema (itemName type) item
        return hashField (keccak (← layout fields))
      else basicField type v
    | _ => if isArray type then throw refused else basicField type v
termination_by sizeOf v
decreasing_by
  · assumption
  · have := List.sizeOf_lt_of_mem ‹item ∈ items›
    simp +arith
    omega

/-- The hash of a message of a type of the schema. -/
def structHash (schema : Schema) (type : String) (data : Value) : Except Error Bytes := do
  let typeHash ← typeHash schema type
  let fields ← ((schema.lookup type).getD []).mapM fun m => do
    let ⟨e, _⟩ ← entry data m
    field schema m.type e
  return keccak (← layout (hashField typeHash :: fields))

/-! ## Domains -/

/-- The type of domains. -/
def domainType : String := "EIP712Domain"

/-- What a domain can have, in this order. -/
def domainMembers : List Member := [
  ⟨some (.text "name"), "string"⟩, ⟨some (.text "version"), "string"⟩,
  ⟨some (.text "chainId"), "uint256"⟩, ⟨some (.text "verifyingContract"), "address"⟩,
  ⟨some (.text "salt"), "bytes32"⟩]

/-- Whether a member has an entry under its name. -/
def isPresent (entries : List (String × Value)) (m : Member) : Bool :=
  match m.name? with
  | some (.text key) => (Value.get? key entries).isSome
  | _ => false

/-- The hash of a domain, by the members that it has. -/
def domainHash (entries : List (String × Value)) : Except Error Bytes := do
  let known (key : String) : Bool := domainMembers.any (isPresent [(key, .null)])
  if !entries.all fun (key, _) => known key then throw refused
  let schema := [(domainType, domainMembers.filter (isPresent entries))]
  structHash schema domainType (.map entries)

/-! ## Payloads -/

/-- The two parts of a value that can stand for an entry. -/
def pair? : Value → Option (Value × Value)
  | .list [key, v] => some (key, v)
  | .map [(key, _), (v, _)] => some (.text key, .text v)
  | .text s =>
    match s.toList with
    | [c, d] => some (.text c.toString, .text d.toString)
    | _ => none
  | .bytes [a, b] => some (.int a.toNat, .int b.toNat)
  | _ => none

/-- The entries of a payload, of which the last of a name counts. A list can stand for the
mapping of its pairs; what stands for no mapping has no entries. -/
def payloadOf : Value → List (String × Value)
  | .map entries => entries
  | .list items =>
    let entry? (item : Value) : Option (List (String × Value)) :=
      match pair? item with
      | some (.text key, v) => some [(key, v)]
      | some (.list _, _) | some (.map _, _) | none => none
      | some _ => some []
    ((items.reverse.mapM entry?).map List.flatten).getD []
  | _ => []

/-- An entry of a payload that is to be there. -/
def require (key : String) (payload : List (String × Value)) : Except Error Value :=
  match Value.get? key payload with
  | some v => .ok v
  | none => .error refused

/-- The names that a definition of the domain type lists. -/
def listedNames : Value → Except Error (List Value)
  | .list items => items.mapM fun
    | .map entries => do
      match ← require "name" entries with
      | .list _ | .map _ => throw refused
      | name => return name
    | _ => throw refused
  | .text "" | .bytes [] | .map [] => .ok []
  | _ => .error refused

/-- Whether listed names are those of the entries of a domain. -/
def namesMatch (names : List Value) (domain : List (String × Value)) : Bool :=
  (names.all fun
    | .text key => (Value.get? key domain).isSome
    | _ => false) &&
  domain.all fun (key, _) => names.any fun
    | .text name => name == key
    | _ => false

/-- A part of a payload that is to be a mapping. A list has no use, but is told later. -/
def collection : Value → Except Error Value
  | .map entries => .ok (.map entries)
  | .list items => .ok (.list items)
  | _ => .error (.fault .noEntries)

/-- The entries of a mapping. -/
def entries? : Value → Option (List (String × Value))
  | .map entries => some entries
  | _ => none

/-- Whether types name that of domains. -/
def namesDomainType : Value → Bool
  | .map entries => (Value.get? domainType entries).isSome
  | .list items => items.any fun
    | .text name => name == domainType
    | _ => false
  | _ => false

/-- The bytes that are hashed for a payload. -/
def preimage (payload : List (String × Value)) : Except Error Bytes := do
  let given ← collection (← require "types" payload)
  let domain? := entries? (← collection (← require "domain" payload))
  if namesDomainType given && domain?.isNone then throw (.fault .noEntries)
  let some types := entries? given | throw refused
  let domain := domain?.getD []
  if let some listed := Value.get? domainType types then
    if !namesMatch (← listedNames listed) domain then throw (.fault .typeMismatch)
  let types := types.filter fun (name, _) => name != domainType
  if let some given := Value.get? "primaryType" payload then
    let primary ← primaryType (← readSchema types)
    let agrees := match given with
      | .text name => name == primary
      | _ => false
    if !agrees then throw (.fault .typeMismatch)
  let message ← require "message" payload
  if domain?.isNone then throw (.fault .noEntries)
  let domainHash ← domainHash domain
  let schema ← readSchema types
  let primary ← primaryType schema
  return Message.structured domainHash (← structHash schema primary message)

/-- The digest of a payload. -/
def digest (payload : List (String × Value)) : Except Error Bytes := do
  return keccak (← preimage payload)

end MetaTx.TypedData
