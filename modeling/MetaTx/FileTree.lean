import MetaTx.Error
import MetaTx.Text.Line

/-!
# Trees of files

Which files there are, and which of them a path leads to. A path is followed step by step:
every step but the last is to lead to a directory, and the last one to a file. Slashes that
are doubled or stand at the end, and steps to where one already is, do not count.
-/

namespace MetaTx

/-- The names on the way from the root to a file or a directory. -/
abbrev Place := List String

structure FileTree where
  /-- The directory in which paths start that do not start at the root. -/
  here : Place := []
  files : List (Place × Bytes) := []
  /-- The directories, of which those on the way to `here` and to files go without saying. -/
  directories : List Place := []

namespace FileTree

/-! ## Paths -/

/-- The steps of a path that lead somewhere. -/
def steps (path : String) : List String :=
  ((Text.pieces (· == '/') path.toList).map String.ofList).filter fun step =>
    step != "" && step != "."

def isFromRoot (path : String) : Bool := path.toList.head? == some '/'

/-- The place one step on; two dots lead back. -/
def next (place : Place) (step : String) : Place :=
  if step = ".." then place.dropLast else place ++ [step]

/-- How many bytes a name may have. -/
def maxName : Nat := 255

/-- How many bytes a path may have, without what does not count. -/
def maxPath : Nat := 4095

/-- Whether a path has more bytes than it may have. -/
def isLong (path : String) : Bool :=
  let text := "/".intercalate (steps path)
  maxPath < text.utf8ByteSize + (if isFromRoot path then 1 else 0)

/-! ## Files -/

/-- Whether there is a directory at a place. -/
def isDirectory (tree : FileTree) (place : Place) : Bool :=
  place.isPrefixOf tree.here || tree.directories.any (place.isPrefixOf ·) ||
    tree.files.any fun (file, _) => place.isPrefixOf file && place != file

/-- The content of the file to which steps lead from a place. -/
def follow (tree : FileTree) (place : Place) : List String → Except Fault Bytes
  | [] => .error .notFile
  | step :: rest =>
    let place := next place step
    if maxName < step.utf8ByteSize then .error .longPath
    else match tree.files.lookup place with
      | some content => if rest.isEmpty then .ok content else .error .throughFile
      | none => if tree.isDirectory place then tree.follow place rest else .error .noFile

/-- The content of the file to which a path leads. -/
def read (tree : FileTree) (path : String) : Except Fault Bytes :=
  if path.toList.contains '\x00' then .error .zeroInPath
  else if isLong path then .error .longPath
  else tree.follow (if isFromRoot path then [] else tree.here) (steps path)

/-- A tree with one file, to which a path leads. -/
def single (path : String) (content : Bytes) : FileTree where
  files := [((steps path).foldl next [], content)]

end FileTree

end MetaTx
