import PatternAudit.MatchFile.LoadError
import PatternAudit.MatchFile.Reader
import PatternAudit.Text.Blank

/-!
# A match file from its bytes

The bytes of a source are fed to the reader. Occurrences beyond the limit stop it at once; a blank
pattern name is looked for only when the whole text has been read.
-/

namespace PatternAudit.MatchFile

/-- The error with which the reader halts after the bytes before `p`. -/
def Halt.toError (limit : Nat) (p : Position) : Halt → LoadError
  | .fault cause => .unreadable (.shownAt cause p)
  | .limit => .tooMany limit

/-- Feeds bytes to a reader that has come as far as `p`. -/
def feed (limit : Nat) (r : Reader) (p : Position) :
    List UInt8 → Except LoadError (Reader × Position)
  | [] => .ok (r, p)
  | b :: rest =>
    match r.step limit b with
    | .ok r => feed limit r (p.advance b) rest
    | .error halt => .error (halt.toError limit (p.advance b))

/-- The file at the end of a source. -/
def conclude (limit : Nat) (r : Reader) (p : Position) :
    Option SourceFailure → Except LoadError MatchFile
  | none => (r.finish limit).mapError fun cause => .unreadable (.shownAt cause p)
  | some failure =>
    let cause := r.interrupt failure
    .error (.unreadable (if r.isInside then .shownAt cause p else ⟨cause, none⟩))

/-- The position of the first occurrence with a blank pattern name. -/
def firstUnnamed? (os : List Occurrence) : Option Nat :=
  os.findIdx? fun o => Text.allBlank o.pattern

/-- Refuses occurrences with a blank pattern name. -/
def validate (os : List Occurrence) : Except LoadError Unit :=
  match firstUnnamed? os with
  | some index => .error (.unnamed index)
  | none => .ok ()

/-- Reads a match file of at most `limit` occurrences. -/
def read (limit : Nat) (source : Source) : Except LoadError MatchFile := do
  let (r, p) ← feed limit .start .start source.bytes
  let file ← conclude limit r p source.failure
  validate file.found
  return file

end PatternAudit.MatchFile
