import PatternAudit.Encoding
import PatternAudit.Scoring

/-!
# Scoring as a JSON document
-/

namespace PatternAudit.Report

/-- The document for a run. The members of all its objects are in the order of their names, and
occurrences ascend by start. -/
def document (run : RunInfo) (s : Scoring) : Json :=
  let sorted (os : List Occurrence) : Json := occurrencesToJson (Occurrence.sortByStart os)
  let c := s.classification
  Json.sortMembers (.object [("run", run.toJson), ("detected", .natural s.detectedCount),
    ("collisions_resolved", .natural s.collisionsResolved), ("summary", s.summary.toJson),
    ("patterns_used", .array (c.patternsUsed.map .string)), ("correct", sorted c.correct),
    ("wrong", sorted c.wrong), ("found_reference", sorted c.found),
    ("not_found_reference", sorted c.missed)])

end PatternAudit.Report
