import MetaTx.ExecuteCommand

/-!
# The program

Reads what is around, carries out the command, and prints what it leaves. There is no
connection to a key service here: a signer that needs one is told that there is no answer.
-/

namespace MetaTx

/-- The content of a file, if it can be read. -/
def readFile? (path : String) : IO (Option Bytes) := do
  try
    let content ← IO.FS.readBinFile path
    return some content.toList
  catch _ => return none

/-- The variables under some names that have values. -/
def readVariables (names : List String) : IO (List (String × String)) :=
  names.filterMapM fun name => do
    let value? ← IO.getEnv name
    return value?.map fun value => (name, value)

/-- What is around, without files to be read later. -/
def readSurroundings : IO Surroundings := do
  let content? ← readFile? Settings.fileName
  let envFile? := content?.bind Bytes.toText?
  let referred := EnvFile.referred ((envFile?.getD "").toList)
  let names := Settings.names.map String.toUpper ++ Settings.names ++ referred
  return { environment := ← readVariables names.eraseDups, envFile? }

/-- The file of keys that the settings name. -/
def readKeyFile (around : Surroundings) : IO FileTree := do
  match (Settings.read [] around).toOption.bind Settings.keyFile? with
  | none => return {}
  | some path =>
    let content? ← readFile? path
    return (content?.map (FileTree.single path)).getD {}

end MetaTx

open MetaTx

def main (arguments : List String) : IO UInt32 := do
  let around ← readSurroundings
  let files ← readKeyFile around
  let (result, session) := ExecuteCommand.invoke arguments { around with files } {}
  for notice in session.notices do
    IO.eprintln notice.line
  match result with
  | .ok outcome =>
    IO.eprint outcome.complaint
    IO.print outcome.output
    return UInt32.ofNat outcome.code
  | .error e =>
    IO.eprintln e.message
    return 1
