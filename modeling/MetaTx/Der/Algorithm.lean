import MetaTx.Der.Domain

/-!
# Algorithms of public keys

An encoded key starts with the identifier of its algorithm and the parameters of that
algorithm. Known algorithms take parameters of one form only. Of unknown ones, whose keys are
never read, the parameters can be any element.
-/

namespace MetaTx.Der

/-- An algorithm with its parameters, as far as they matter for reading a key. -/
inductive Algorithm
  | secp256k1
  /-- Keys are points of another curve. -/
  | otherCurve (curve : NamedCurve)
  | rsa
  /-- Keys are byte strings of a fixed length. -/
  | fixed (width : Nat)
  /-- Keys are single integers. -/
  | single
  /-- No keys are read. -/
  | unknown

namespace Algorithm

/-! ## Identifiers -/

def ecId : ObjectId := [1, 2, 840, 10045, 2, 1]

def rsaId : ObjectId := [1, 2, 840, 113549, 1, 1, 1]

def rsaPssId : ObjectId := [1, 2, 840, 113549, 1, 1, 10]

def dsaId : ObjectId := [1, 2, 840, 10040, 4, 1]

/-- Key agreement after Diffie and Hellman in a subgroup of known order. -/
def subgroupDhId : ObjectId := [1, 2, 840, 10046, 2, 1]

/-- Key agreement after Diffie and Hellman. -/
def dhId : ObjectId := [1, 2, 840, 113549, 1, 3, 1]

def secp256k1Id : ObjectId := [1, 3, 132, 0, 10]

/-- The other curves. -/
def namedCurves : List (ObjectId × NamedCurve) := [
  ([1, 2, 840, 10045, 3, 1, 1], .p192), ([1, 3, 132, 0, 33], .p224),
  ([1, 2, 840, 10045, 3, 1, 7], .p256), ([1, 3, 132, 0, 34], .p384), ([1, 3, 132, 0, 35], .p521),
  ([1, 3, 36, 3, 3, 2, 8, 1, 1, 7], .brainpool256),
  ([1, 3, 36, 3, 3, 2, 8, 1, 1, 11], .brainpool384),
  ([1, 3, 36, 3, 3, 2, 8, 1, 1, 13], .brainpool512)]

/-- The algorithms X25519, X448, Ed25519 and Ed448 with the lengths of their keys. -/
def fixedKeys : List (ObjectId × Nat) := [
  ([1, 3, 101, 110], 32), ([1, 3, 101, 111], 56), ([1, 3, 101, 112], 32), ([1, 3, 101, 113], 57)]

/-- Whether an identifier is that of a digest or of a signature over one, without keys of its
own. -/
def isDigestId (id : ObjectId) : Bool :=
  let under (parent : ObjectId) (least greatest : Nat) : Bool :=
    id.dropLast == parent && id.getLast?.any fun n => least ≤ n && n ≤ greatest
  id == [1, 3, 14, 3, 2, 26] || id == [1, 3, 14, 3, 2, 29] ||
    under [1, 2, 840, 113549, 1, 1] 5 5 || under [1, 2, 840, 113549, 1, 1] 11 14 ||
    under [1, 2, 840, 10045, 4, 3] 1 4 || under [1, 2, 840, 113549, 2] 7 11 ||
    under [2, 16, 840, 1, 101, 3, 4, 2] 1 4 || under [2, 16, 840, 1, 101, 3, 4, 2] 7 10 ||
    under [2, 16, 840, 1, 101, 3, 4, 3] 1 4 || under [2, 16, 840, 1, 101, 3, 4, 3] 9 16

/-! ## Parameters -/

/-- Whether parameters are absent or null. -/
def isNothing (parameters : Bytes) : Bool :=
  parameters.isEmpty || only? .null parameters == some []

/-- The curve that parameters name or spell out. One that they leave open is unknown. -/
def ofCurve? (parameters : Bytes) : Option Algorithm :=
  let known (curve? : Option NamedCurve) : Algorithm := (curve?.map otherCurve).getD unknown
  match only? .objectId parameters, only? .sequence parameters with
  | some content, _ =>
    (ObjectId.ofContent? content).map fun id =>
      if id = secp256k1Id then .secp256k1 else known (namedCurves.lookup id)
  | none, some content => (Domain.ofContent? content).map fun domain => known domain.curve?
  | none, none => if only? .null parameters = some [] then some .unknown else none

/-- Whether bytes are an algorithm with any parameters, other than the one that goes without
saying. -/
def isChoice (default content : Bytes) : Bool :=
  match only? .sequence content with
  | some body =>
    match element? .objectId body with
    | some (id, parameters) =>
      (ObjectId.ofContent? id).isSome && isAtMostOne parameters && body != default
    | none => false
  | none => false

/-- Whether bytes are an integer below a bound, other than the one that goes without saying. -/
def isNumber (bound default : Nat) (content : Bytes) : Bool :=
  match integer? content with
  | some (n, []) => n < bound && n != default
  | _ => false

/-- SHA-1 with null parameters. -/
def sha1 : Bytes := [0x06, 0x05, 0x2b, 0x0e, 0x03, 0x02, 0x1a, 0x05, 0x00]

/-- The mask generation that digests with SHA-1. -/
def mask1 : Bytes :=
  [0x06, 0x09, 0x2a, 0x86, 0x48, 0x86, 0xf7, 0x0d, 0x01, 0x01, 0x08, 0x30, 0x09] ++ sha1

/-- Whether bytes are the choices of a padding with salt: the digest, the mask generation, the
length of the salt and the mark at the end. None is written that goes without saying. -/
def isPadding (parameters : Bytes) : Bool :=
  let rest? := do
    let rest ← afterOptional? (.context 0) (isChoice sha1) (← only? .sequence parameters)
    let rest ← afterOptional? (.context 1) (isChoice mask1) rest
    let rest ← afterOptional? (.context 2) (isNumber (Bytes.limit 2) 20) rest
    afterOptional? (.context 3) (isNumber (Bytes.limit 1) 1) rest
  rest? == some []

/-- Whether parameters are a sequence of some integers and what may follow them. -/
def isGroup (integers : Nat) (after? : Bytes → Option Bytes) (parameters : Bytes) : Bool :=
  (only? .sequence parameters).bind (afterIntegers? integers) |>.bind after? |>.any List.isEmpty

/-- Whether bytes are the seed and the counter of a search for a group. -/
def isSearch (content : Bytes) : Bool :=
  match element? .bitString content with
  | some (seed, rest) => isBits seed && afterIntegers? 1 rest == some []
  | none => false

/-- What follows the cofactor of a group and the search for it. -/
def afterCofactor? (bs : Bytes) : Option Bytes :=
  afterOptional? .integer (natural? · |>.isSome) bs >>= afterOptional? .sequence isSearch

/-- Reads the content of an identifier with its parameters. -/
def ofContent? (content : Bytes) : Option Algorithm := do
  let (encoded, parameters) ← element? .objectId content
  let id ← ObjectId.ofContent? encoded
  let wanted (test : Bool) (algorithm : Algorithm) : Option Algorithm :=
    if test then some algorithm else none
  if id = ecId then ofCurve? parameters
  else if id = rsaId then wanted (isNothing parameters) .rsa
  else if id = rsaPssId then wanted (parameters.isEmpty || isPadding parameters) .rsa
  else if id = dsaId then wanted (isGroup 3 some parameters) .single
  else if id = subgroupDhId then wanted (isGroup 3 afterCofactor? parameters) .single
  else if id = dhId then
    let isLength (bs : Bytes) : Bool := (natural? bs).any (· < Bytes.limit 4)
    wanted (isGroup 2 (afterOptional? .integer isLength) parameters) .single
  else match fixedKeys.lookup id with
    | some width => wanted parameters.isEmpty (.fixed width)
    | none =>
      wanted (if isDigestId id then isNothing parameters else isAtMostOne parameters) .unknown

end Algorithm

end MetaTx.Der
