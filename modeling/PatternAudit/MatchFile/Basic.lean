import PatternAudit.Occurrence

/-!
# Match files

A match file holds what one matcher found in one executable, with some facts about the run.
-/

namespace PatternAudit

/-- The run of a matcher on an executable. What a file does not tell is empty or zero. -/
structure RunInfo where
  executable : String := ""
  matcher : String := ""
  architecture : String := ""
  realTime : Float := 0.0
  cpuTime : Float := 0.0
  deriving DecidableEq

structure MatchFile where
  run : RunInfo
  found : List Occurrence
  deriving DecidableEq

/-- The most occurrences that a match file may hold. -/
def maxMatches : Nat := 10000000

end PatternAudit
