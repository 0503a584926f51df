import PatternAudit.Disk
import PatternAudit.MatchFile.Fault

/-!
# Why a match file cannot be loaded
-/

namespace PatternAudit.MatchFile

inductive LoadError
  | unopened (error : OpenError)
  | unreadable (fault : Fault)
  /-- The occurrence at this position has a blank pattern name. -/
  | unnamed (index : Nat)
  | tooMany (limit : Nat)

namespace LoadError

def message : LoadError → String
  | unopened error => "IO error: " ++ error.message
  | unreadable fault => "Invalid JSON: " ++ fault.text
  | unnamed index => s!"Invalid match file: Match {index.repr} has an empty patternName"
  | tooMany limit =>
    s!"Too many matches: adding another would exceed maximum of {limit.repr}"

/-- The error that lies below this one, if there is one. -/
def cause? : LoadError → Option String
  | unopened error => some error.message
  | unreadable fault => some fault.text
  | unnamed _ => none
  | tooMany _ => none

end LoadError

/-- Adding an occurrence to `count` others is refused once the limit is reached. -/
def checkLimit (count limit : Nat) : Option LoadError :=
  if limit ≤ count then some (.tooMany limit) else none

theorem isSome_checkLimit_iff {count limit : Nat} :
    (checkLimit count limit).isSome ↔ limit ≤ count := by
  unfold checkLimit
  split <;> simp [*]

end PatternAudit.MatchFile
