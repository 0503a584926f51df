import PatternAudit.Gzip.Member
import PatternAudit.Log
import PatternAudit.MatchFile.Read

/-!
# Loading a match file

A file whose extension is `gz` is inflated while it is read.
-/

namespace PatternAudit.MatchFile

/-- The bytes that reading the entry at `path` gives. -/
def source (path : Path) : Entry → Source
  | .directory => .failed .isDirectory
  | .file bytes => if path.isGzip then Gzip.source bytes else .ofBytes bytes

/-- Loads the match file at `path`. -/
def load (disk : Disk) (path : Path) : Except LoadError MatchFile :=
  match disk path with
  | .error e => .error (.unopened e)
  | .ok entry => read maxMatches (source path entry)

/-- What is logged when a file has been loaded. -/
def loaded (path : Path) (f : MatchFile) : Log.Entry :=
  ⟨.debug, s!"Loaded {f.found.length} matches from {path.text} (matcher '{f.run.matcher}')"⟩

end PatternAudit.MatchFile
