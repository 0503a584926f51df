import PatternAudit.Json.Value
import PatternAudit.MatchFile.Basic
import PatternAudit.Summary

/-!
# JSON forms

The member names are those of the match file format and of the reports.
-/

namespace PatternAudit

def Occurrence.toJson (o : Occurrence) : Json :=
  .object [("patternName", .string o.pattern), ("startEA", .natural o.start.toNat),
    ("endEA", .natural o.stop.toNat)]

def occurrencesToJson (os : List Occurrence) : Json :=
  .array (os.map Occurrence.toJson)

def RunInfo.toMembers (r : RunInfo) : List (String × Json) :=
  [("executableName", .string r.executable), ("matcherName", .string r.matcher),
    ("executableArchitecture", .string r.architecture), ("realTime", .float r.realTime),
    ("cpuTime", .float r.cpuTime)]

def RunInfo.toJson (r : RunInfo) : Json :=
  .object r.toMembers

/-- The facts about the run stand beside the list of occurrences, not below a member of their
own. -/
def MatchFile.toJson (f : MatchFile) : Json :=
  .object (f.run.toMembers ++ [("matches", occurrencesToJson f.found)])

def Classification.toMembers (c : Classification) : List (String × Json) :=
  [("correct", occurrencesToJson c.correct), ("wrong", occurrencesToJson c.wrong),
    ("found_reference", occurrencesToJson c.found),
    ("not_found_reference", occurrencesToJson c.missed),
    ("patterns_used", .array (c.patternsUsed.map .string))]

def Classification.toJson (c : Classification) : Json :=
  .object c.toMembers

def Summary.toJson (s : Summary) : Json :=
  .object [("correct", .natural s.correct), ("wrong", .natural s.wrong),
    ("found_reference", .natural s.found), ("not_found_reference", .natural s.missed),
    ("patterns_used", .natural s.patternsUsed), ("total", .natural s.total),
    ("correct_fraction", .float s.correctFraction),
    ("not_found_fraction", .float s.missedFraction),
    ("wrong_fraction", .float s.wrongFraction), ("precision", .float s.precisionRatio),
    ("recall", .float s.recallRatio)]

end PatternAudit
