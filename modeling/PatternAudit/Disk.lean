import PatternAudit.Path

/-!
# Opening files

A disk tells what opening a path gives. A directory can be opened like a file; it is reading it that
fails.
-/

namespace PatternAudit

/-- Why a path cannot be opened. -/
inductive OpenError
  | notFound
  | notDirectory
  | nameTooLong
  | zeroByte
  | other (message : String)
  deriving DecidableEq

def OpenError.message : OpenError → String
  | notFound => "No such file or directory (os error 2)"
  | notDirectory => "Not a directory (os error 20)"
  | nameTooLong => "File name too long (os error 36)"
  | zeroByte => "file name contained an unexpected NUL byte"
  | other message => message

/-- What stands at a path. -/
inductive Entry
  | file (bytes : List UInt8)
  | directory
  deriving DecidableEq

/-- What opening each path gives. -/
abbrev Disk := Path → Except OpenError Entry

/-- Files and directories by name. -/
inductive FileTree
  | file (bytes : List UInt8)
  | directory (entries : List (List UInt8 × FileTree))

namespace FileTree

def empty : FileTree := directory []

/-- The tree with what stands at the end of a row of names changed, inside directories that are made
as needed. What has not been there counts as an empty directory. -/
def update (tree : FileTree) (change : FileTree → FileTree) : List (List UInt8) → FileTree
  | [] => change tree
  | name :: rest =>
    let entries := match tree with
      | directory entries => entries
      | file _ => []
    let old := ((entries.find? fun e => e.1 == name).map Prod.snd).getD empty
    directory ((name, update old change rest) :: entries.filter fun e => e.1 != name)

/-- The names that lead to where a segment leads from the end of `names`. -/
def follow (names : List (List UInt8)) (segment : List UInt8) : List (List UInt8) :=
  if Path.isTrivial segment then names
  else if segment == [Path.dot, Path.dot] then names.dropLast
  else names ++ [segment]

/-- Changes what stands at the end of a row of segments. All that the segments before the last one
pass through are directories, also those that are left again by a double dot. -/
def place (tree : FileTree) (change : FileTree → FileTree) (names : List (List UInt8)) :
    List (List UInt8) → FileTree
  | [] => tree.update change names
  | [segment] => tree.update change (follow names segment)
  | segment :: rest =>
    let names := follow names segment
    place (tree.update id names) change names rest

/-- The tree with a file at a path, instead of what has been there. -/
def addFile (tree : FileTree) (path : Path) (bytes : List UInt8) : FileTree :=
  tree.place (fun _ => file bytes) [] (Path.segments path.body)

/-- The tree with a directory at a path, which keeps what is in it. -/
def addDirectory (tree : FileTree) (path : Path) : FileTree :=
  tree.place id [] (Path.segments path.body)

/-- The longest name, and the longest path, that can be opened. -/
def maxNameLength : Nat := 255

def maxPathLength : Nat := 4095

/-- Walks along segments from the innermost of the given directories, which stands inside the
others. Outside of all of them nothing is known. -/
def walk : List FileTree → List (List UInt8) → Except OpenError Entry
  | [], [] => .ok .directory
  | file bytes :: _, [] => .ok (.file bytes)
  | directory _ :: _, [] => .ok .directory
  | file _ :: _, _ :: _ => .error .notDirectory
  | [], segment :: rest =>
    if Path.isTrivial segment || segment == [Path.dot, Path.dot] then walk [] rest
    else if maxNameLength < segment.length then .error .nameTooLong
    else .error .notFound
  | directory entries :: outer, segment :: rest =>
    if Path.isTrivial segment then walk (directory entries :: outer) rest
    else if segment == [Path.dot, Path.dot] then walk outer rest
    else if maxNameLength < segment.length then .error .nameTooLong
    else
      match entries.find? fun e => e.1 == segment with
      | some (_, tree) => walk (tree :: directory entries :: outer) rest
      | none => .error .notFound

/-- The disk whose current directory is this tree. -/
def disk (tree : FileTree) : Disk := fun path =>
  if path.bytes.contains 0 then .error .zeroByte
  else if path.bytes.isEmpty then .error .notFound
  else if maxPathLength < path.bytes.length then .error .nameTooLong
  else if path.isAbsolute then walk [] (Path.segments path.body)
  else walk [tree] (Path.segments path.body)

end FileTree

end PatternAudit
