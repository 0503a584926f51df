import PatternAudit.Classification

/-!
# Scoring as text

The sizes of the parts of a classification, each with its occurrences below it, ascending by start.
-/

namespace PatternAudit.Report

/-- A line of text. -/
def line (s : String) : String := s ++ "\n"

/-- The occurrences of a part, one to a line. -/
def listing (os : List Occurrence) : String :=
  String.join ((Occurrence.sortByStart os).map fun o => line ("  " ++ o.line))

/-- The text report. Correct detections are only counted, unless it is to be `verbose`. -/
def text (verbose : Bool) (c : Classification) : String :=
  line s!"correct: {c.correct.length.repr}" ++
  (if verbose then listing c.correct else "") ++
  line s!"wrong: {c.wrong.length.repr}" ++
  listing c.wrong ++
  line s!"references not found: {c.missed.length.repr}" ++
  listing c.missed ++
  line s!"number of patterns used: {c.patternsUsed.length.repr}"

end PatternAudit.Report
