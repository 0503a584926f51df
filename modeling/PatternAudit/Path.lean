import PatternAudit.Text.Utf8

/-!
# Paths

A path is a sequence of bytes, cut into segments by slashes. Empty segments and single dots do not
count, except for a dot at the very beginning. What is left are the components of the path.
-/

namespace PatternAudit

/-- A part of a path that counts. -/
inductive Component
  | root
  /-- The dot at the beginning of a path. -/
  | current
  | parent
  | name (bytes : List UInt8)
  deriving DecidableEq

structure Path where
  bytes : List UInt8
  deriving DecidableEq

namespace Path

def slash : UInt8 := 0x2f

def dot : UInt8 := 0x2e

def ofString (s : String) : Path := ⟨Utf8.encode s⟩

/-- The path as text, for messages. -/
def text (p : Path) : String := Utf8.lossy p.bytes

def isAbsolute (p : Path) : Bool :=
  p.bytes.head? == some slash

/-- The bytes after the slash that an absolute path begins with. -/
def body (p : Path) : List UInt8 :=
  if p.isAbsolute then p.bytes.tail else p.bytes

/-- Cuts bytes at every slash. There is always at least one segment. -/
def segments (bytes : List UInt8) : List (List UInt8) :=
  bytes.splitOn slash

/-- Segments that stand for no step. -/
def isTrivial (segment : List UInt8) : Bool :=
  segment == [] || segment == [dot]

/-- Puts the slashes back. -/
def join (segments : List (List UInt8)) : List UInt8 :=
  [slash].intercalate segments

/-- Whether the first segment is a dot that counts. -/
def startsHere (p : Path) : Bool :=
  !p.isAbsolute && (segments p.body).head? == some [dot]

/-- The component of a segment that is not trivial. -/
def component (segment : List UInt8) : Component :=
  if segment == [dot, dot] then .parent else .name segment

def components (p : Path) : List Component :=
  (if p.isAbsolute then [.root] else if p.startsHere then [.current] else []) ++
    ((segments p.body).filter fun s => !isTrivial s).map component

/-- Segments without the trivial ones at their end. -/
def trimEnd (segments : List (List UInt8)) : List (List UInt8) :=
  (segments.reverse.dropWhile isTrivial).reverse

/-- The last component, if it is a name. -/
def fileName? (p : Path) : Option (List UInt8) :=
  match (trimEnd (segments p.body)).getLast? with
  | none => none
  | some segment => if segment == [dot, dot] then none else some segment

/-- The path without its last segment and the trivial ones before that. -/
def parent (p : Path) : Path :=
  let kept := trimEnd (trimEnd (segments p.body)).dropLast
  if p.isAbsolute then ⟨slash :: join kept⟩
  else if kept.isEmpty && p.startsHere then ⟨[dot]⟩
  else ⟨join kept⟩

/-- The path one step further. A name is not absolute. -/
def append (p : Path) (name : List UInt8) : Path :=
  match p.bytes.getLast? with
  | none => ⟨name⟩
  | some last => if last = slash then ⟨p.bytes ++ name⟩ else ⟨p.bytes ++ slash :: name⟩

/-- The path with its file name replaced, or with a file name added if it has none. -/
def withFileName (p : Path) (name : List UInt8) : Path :=
  match p.fileName? with
  | some _ => p.parent.append name
  | none => p.append name

/-- A file name before its last dot and after it. A dot at the beginning does not count. -/
def splitName (name : List UInt8) : List UInt8 × Option (List UInt8) :=
  let after := (name.reverse.takeWhile (· != dot)).reverse
  let before := name.take (name.length - after.length - 1)
  if before.isEmpty then (name, none) else (before, some after)

/-- The file name up to its last dot, as text; empty if there is no file name. -/
def stem (p : Path) : String :=
  match p.fileName? with
  | none => ""
  | some name => Utf8.lossy (splitName name).1

/-- The file name after its last dot. -/
def extension? (p : Path) : Option (List UInt8) :=
  p.fileName?.bind fun name => (splitName name).2

/-- Whether the extension is `gz`, in any case. -/
def isGzip (p : Path) : Bool :=
  match p.extension? with
  | some [g, z] => (g == 0x67 || g == 0x47) && (z == 0x7a || z == 0x5a)
  | _ => false

end Path

/-- Where the matches that `matcher` found in an executable are kept: beside it. -/
def matchPath (executable : Path) (matcher : String) : Path :=
  executable.withFileName (Utf8.encode (executable.stem ++ "_matched_" ++ matcher ++ ".json"))

end PatternAudit
