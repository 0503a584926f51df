import PatternAudit.Json.Defect
import PatternAudit.Json.Value
import PatternAudit.Source
import PatternAudit.Text.Quoted

/-!
# What can be wrong with the text of a match file

A fault is a cause and, mostly, a position. The position counts the bytes up to and including the
one that shows the fault.
-/

namespace PatternAudit.MatchFile

/-- A value that stands where another kind of value is expected. Of an array or object only its
opening bracket is known. -/
inductive Unexpected
  | null
  | bool (b : Bool)
  | natural (n : Nat)
  | negative (n : Nat)
  | float (x : Float)
  | string (s : String)
  | array
  | object

def Unexpected.text : Unexpected → String
  | null => "null"
  | bool b => s!"boolean `{Json.boolText b}`"
  | natural n => s!"integer `{n.repr}`"
  | negative n => s!"integer `-{n.repr}`"
  | float x => s!"floating point `{Json.floatText x}`"
  | string s => s!"string {Text.quoted s}"
  | array => "sequence"
  | object => "map"

/-- What a place in a match file holds. -/
inductive Expected
  | file
  | occurrences (limit : Nat)
  | occurrence
  | string
  | location
  | time

def Expected.text : Expected → String
  | file => "a match file object"
  | occurrences limit => s!"an array of at most {limit.repr} matches"
  | occurrence => "struct MatchRecord"
  | string => "a string"
  | location => "u64"
  | time => "f64"

/-- Why a text is refused. -/
inductive Cause
  | source (failure : SourceFailure)
  | defect (d : Json.Defect)
  | wrongType (found : Unexpected) (expected : Expected)
  | negativeLocation (n : Nat)
  /-- An occurrence that is written as an array has too few elements. -/
  | shortOccurrence (length : Nat)
  | missingField (name : String)
  | duplicateField (name : String)

/-- The four sorts of causes. -/
inductive Category
  | source
  | truncated
  | malformed
  | unfit
  deriving DecidableEq

namespace Cause

def category : Cause → Category
  | source _ => .source
  | defect d => if d.isTruncation then .truncated else .malformed
  | wrongType .. | negativeLocation _ | shortOccurrence _ | missingField _ | duplicateField _ =>
    .unfit

def text : Cause → String
  | source failure => failure.message
  | defect d => d.text
  | wrongType found expected => s!"invalid type: {found.text}, expected {expected.text}"
  | negativeLocation n =>
    s!"invalid value: {(Unexpected.negative n).text}, expected {Expected.location.text}"
  | shortOccurrence length =>
    s!"invalid length {length.repr}, expected {Expected.occurrence.text} with 3 elements"
  | missingField name => s!"missing field `{name}`"
  | duplicateField name => s!"duplicate field `{name}`"

end Cause

/-- A place in a text: lines count from `1`, and the column is the number of bytes on the line. -/
structure Position where
  line : Nat
  column : Nat
  deriving DecidableEq

namespace Position

def start : Position := ⟨1, 0⟩

/-- The position after one more byte. -/
def advance (p : Position) (b : UInt8) : Position :=
  if b = 0x0a then ⟨p.line + 1, 0⟩ else ⟨p.line, p.column + 1⟩

end Position

structure Fault where
  cause : Cause
  position : Option Position

namespace Fault

/-- The fault shown by the byte before `p`. That the bytes of a string are no text is shown by the
closing quote, but the fault is where they cease to be text. -/
def shownAt (cause : Cause) (p : Position) : Fault :=
  match cause with
  | .defect (.badText left) => ⟨cause, some ⟨p.line, p.column - left⟩⟩
  | _ => ⟨cause, some p⟩

def text (f : Fault) : String :=
  match f.position with
  | none => f.cause.text
  | some p => f.cause.text ++ s!" at line {p.line.repr} column {p.column.repr}"

end Fault

end PatternAudit.MatchFile
