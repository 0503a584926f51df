import Std.Data.TreeSet
import PatternAudit.LocationIndex

/-!
# Classifying detections

A detection is correct when some reference occurrence ends at the same location, and a reference
occurrence is found when some detection does. Both sides keep their order and their repetitions.
-/

namespace PatternAudit

/-- The distinct names of a list, ascending. -/
def distinctNames (names : List String) : List String :=
  (Std.TreeSet.ofList names compare).toList

/-- The detections and the reference occurrences, each split by whether the other side has an
occurrence at the same place. -/
structure Classification where
  correct : List Occurrence
  wrong : List Occurrence
  found : List Occurrence
  missed : List Occurrence
  patternsUsed : List String

/-- Marks every reference position that a detection hits. -/
def markHits (index : LocationIndex) (marks : Array Bool) (detection : Occurrence) : Array Bool :=
  (index.hits detection).foldl (fun marks position => marks.setIfInBounds position true) marks

/-- Splits detections and reference by location, with one index over the reference. -/
def classify (detected reference : List Occurrence) : Classification :=
  let index := LocationIndex.ofList reference
  let (correct, wrong) := detected.partition fun o => !(index.hits o).isEmpty
  let marks := detected.foldl (markHits index) (Array.replicate reference.length false)
  let (found, missed) := (reference.zip marks.toList).partition fun entry => entry.2
  { correct, wrong
    found := found.map Prod.fst
    missed := missed.map Prod.fst
    patternsUsed := distinctNames (correct.map Occurrence.pattern) }

end PatternAudit
