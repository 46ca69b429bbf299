import MetaTx.Field.Reader
import MetaTx.Settings.EnvFile
import MetaTx.FileTree

/-!
# Settings

Which signer is used, with which key, and on which chain. A setting is taken from the
arguments, else from the variables of the surroundings, else from the file of variables,
else it has a default. Names count in any case. A text that is empty counts as given.
-/

namespace MetaTx

/-- What a program finds around it. -/
structure Surroundings where
  environment : List (String × String) := []
  /-- The content of the usual file of variables, if it is there. -/
  envFile? : Option String := none
  files : FileTree := {}

namespace Surroundings

/-- A variable by its name in the right case. -/
def lookup? (s : Surroundings) (name : String) : Option String :=
  (s.environment.find? fun (n, _) => n == name).map Prod.snd

end Surroundings

/-- The settings, each of its right type. -/
structure Settings where
  environment : String
  debug : Bool
  signerBackend : String
  privateKey? : Option String
  keyFile? : Option String
  serviceKeyId? : Option String
  region : String
  chainId : Int
  networkId : Int
  masterKey? : Option String

namespace Settings

open MetaTx.Field MetaTx.Field.Reader

/-- The names of the settings. -/
def names : List String := [
  "environment", "debug", "signer_backend", "private_key", "key_file", "aws_kms_key_id",
  "aws_default_region", "chain_id", "network_id", "master_key"]

/-- Whether two names differ at most in their case. -/
def sameName (a b : String) : Bool := Text.lower a.toList == Text.lower b.toList

/-- The value under a name in the file. Of names that differ in their case the one counts
that was bound first last of all, with its last value. -/
def boundValue? (bound : List (String × Option String)) (name : String) : Option String :=
  let spellings := ((bound.map Prod.fst).filter fun n => sameName n name).eraseDups
  spellings.getLast?.bind fun spelling =>
    (bound.reverse.lookup spelling).bind id

/-- The value of a setting: from the arguments, of which the first counts, from the variables,
of which the last counts, or from the file. -/
def source? (arguments : List (String × Value)) (s : Surroundings)
    (bound : List (String × Option String)) (name : String) : Option Value :=
  let argument? := (arguments.find? fun (n, _) => sameName n name).map Prod.snd
  let outer? := ((s.environment.reverse.find? fun (n, _) => sameName n name).map
    fun (_, v) => Value.text v)
  (argument?.or outer?).or ((boundValue? bound name).map .text)

/-- The name under which an argument tells another file of variables, or none. -/
def fileArgument : String := "_env_file"

/-- The name of the file of variables. -/
def fileName : String := ".env"

/-- The content of the file of variables, nothing if there is none. -/
def fileContent (arguments : List (String × Value)) (s : Surroundings) : String :=
  let content? := match Value.get? fileArgument arguments with
    | none => s.envFile?
    | some (.text path) =>
      if FileTree.steps path = [fileName] then s.envFile?
      else (s.files.read path).toOption.bind Bytes.toText?
    | some _ => none
  content?.getD ""

/-- Reads settings. -/
def check (arguments : List (String × Value)) (s : Surroundings) : Checked Settings :=
  let bound := EnvFile.assignments s.lookup? (fileContent arguments s)
  let find {α : Type} (read : Reader α) (default : α) (name : String) : Checked α :=
    match source? arguments s bound name with
    | some v => given read name v
    | none => .ok default
  Settings.mk
    <$> find text "development" "environment"
    <*> find bool false "debug"
    <*> find text "" "signer_backend"
    <*> find (orNothing text) none "private_key"
    <*> find (orNothing text) none "key_file"
    <*> find (orNothing text) none "aws_kms_key_id"
    <*> find text "us-east-1" "aws_default_region"
    <*> find int 43114 "chain_id"
    <*> find int 1 "network_id"
    <*> find (orNothing text) none "master_key"

/-- Reads settings. -/
def read (arguments : List (String × Value)) (s : Surroundings) : Except Error Settings :=
  (check arguments s).toExcept.mapError fun refusals => .fault (.refusedFields refusals)

/-! ## Views -/

/-- A setting that is neither absent nor empty. -/
def given? (setting? : Option String) : Option String := setting?.filter (· != "")

def isProduction (s : Settings) : Bool :=
  String.ofList (Text.lower s.environment.toList) == "production"

def hasLocalKey (s : Settings) : Bool := (given? s.privateKey?).isSome

/-- A secret as it may be shown. -/
def mask (setting? : Option String) : Value :=
  .text (if (given? setting?).isSome then "***" else "(not set)")

/-- A setting as it may be shown. -/
def shown (setting? : Option String) : Value := .text ((given? setting?).getD "(not set)")

/-- The settings without their secrets. -/
def safeView (s : Settings) : List (String × Value) := [
  ("environment", .text s.environment), ("debug", .bool s.debug),
  ("signer_backend", .text (if s.signerBackend = "" then "(auto)" else s.signerBackend)),
  ("private_key", mask s.privateKey?), ("key_file", shown s.keyFile?),
  ("aws_kms_key_id", shown s.serviceKeyId?), ("aws_default_region", .text s.region),
  ("chain_id", .int s.chainId), ("network_id", .int s.networkId),
  ("master_key", mask s.masterKey?)]

/-! ## Choice of the signer -/

/-- The two kinds of signers. -/
inductive Choice
  | held
  | service
  deriving DecidableEq

/-- The word for a kind of signer. -/
def Choice.word : Choice → String
  | held => "local"
  | service => "kms"

/-- The kind of signer: the one that is named, or else that of the configured key. -/
def choice (s : Settings) : Except Error Choice :=
  let named := String.ofList (Text.lower (Text.trim Text.isBlank s.signerBackend.toList))
  if named = "" then
    .ok (if (given? s.serviceKeyId?).isSome then .service else .held)
  else if named = Choice.held.word then .ok .held
  else if named = Choice.service.word then .ok .service
  else .error (.fault (.unknownBackend s.signerBackend))

end Settings

end MetaTx
