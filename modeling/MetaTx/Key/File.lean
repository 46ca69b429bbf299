import MetaTx.FileTree
import MetaTx.Key.Private

/-!
# Key files

One private key in the checked form on each line. A line that repeats an earlier one is
refused before it is decoded, and the first problem is the one reported.
-/

namespace MetaTx.KeyFile

/-- The keys of lines, the first of them line number `n`, after the lines `seen`. -/
def readLines : (n : Nat) → (seen : List (List Char)) → List (List Char) →
    Except Error (List PrivateKey)
  | _, _, [] => .ok []
  | n, seen, line :: rest => do
    if seen.contains line then throw (.duplicateKey n)
    let key ← PrivateKey.ofChecked (String.ofList line)
    let keys ← readLines (n + 1) (line :: seen) rest
    return key :: keys

/-- The keys of a text. -/
def read (s : String) : Except Error (List PrivateKey) :=
  readLines 1 [] ((Text.lines s.toList).map Text.dropReturn)

/-- The keys of the UTF-8 bytes of a text. -/
def readBytes (bs : Bytes) : Except Error (List PrivateKey) :=
  match Bytes.toText? bs with
  | some s => read s
  | none => .error (.keyText .keyFile)

/-- The keys of a text in the order that a shuffle gives them. -/
def readShuffled (shuffle : List PrivateKey → List PrivateKey) (s : String) :
    Except Error (List PrivateKey) :=
  (read s).map shuffle

/-- The keys of the UTF-8 bytes of a text in the order that a shuffle gives them. -/
def readBytesShuffled (shuffle : List PrivateKey → List PrivateKey) (bs : Bytes) :
    Except Error (List PrivateKey) :=
  (readBytes bs).map shuffle

/-- The keys of the file to which a path leads. -/
def load (files : FileTree) (path : String) : Except Error (List PrivateKey) := do
  readBytes (← (files.read path).mapError .fault)

end MetaTx.KeyFile
