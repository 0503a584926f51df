import PatternAudit.Decimal.Places
import PatternAudit.MatchFile.Basic
import PatternAudit.Summary

/-!
# Scoring as a row

One row for each run, to be collected over many executables. Its nine columns are the executable,
the numbers of correct detections, of references not found and of wrong detections, real time, CPU
time, the matcher, the architecture and the number of patterns used. Texts are written as they are.
-/

namespace PatternAudit.Report

/-- What stands between two columns, and what divides the whole part of a number from the rest. -/
structure RowStyle where
  separator : String
  decimal : Char

namespace RowStyle

def csv : RowStyle := ⟨", ", '.'⟩

def tsv : RowStyle := ⟨"\t", ','⟩

end RowStyle

/-- The columns of a row. -/
def columns (style : RowStyle) (run : RunInfo) (s : Summary) : List String :=
  [run.executable, s.correct.repr, s.missed.repr, s.wrong.repr,
    Places.text run.realTime style.decimal, Places.text run.cpuTime style.decimal, run.matcher,
    run.architecture, s.patternsUsed.repr]

/-- The row of a run, unless there is nothing to report. -/
def row? (style : RowStyle) (run : RunInfo) (s : Summary) : Option String :=
  if s.isEmpty then none else some (style.separator.intercalate (columns style run s))

end PatternAudit.Report
