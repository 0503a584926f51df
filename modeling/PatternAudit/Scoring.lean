import PatternAudit.Collision
import PatternAudit.Log
import PatternAudit.Summary

/-!
# Scoring a list of detections

Scoring resolves the collisions of the detections, unless told to leave them, and classifies what
remains against the reference.
-/

namespace PatternAudit

/-- The outcome of scoring: how many detections came in, which of them were scored, and how. -/
structure Scoring where
  detectedCount : Nat
  scored : List Occurrence
  classification : Classification

/-- Scores `detected` against `reference`. -/
def score (resolve : Bool) (detected reference : List Occurrence) : Scoring :=
  let scored := if resolve then resolveCollisions detected else detected
  { detectedCount := detected.length
    scored
    classification := classify scored reference }

namespace Scoring

/-- The detections that gave way to another one at the same location. -/
def collisionsResolved (s : Scoring) : Nat :=
  s.detectedCount - s.scored.length

def summary (s : Scoring) : Summary :=
  .ofClassification s.classification

/-- What scoring against `referenceCount` occurrences has to say. -/
def log (s : Scoring) (referenceCount : Nat) : List Log.Entry :=
  let c := s.classification
  [⟨.debug, s!"Scoring {s.scored.length} of {s.detectedCount} detections against " ++
      s!"{referenceCount} reference records"⟩,
    ⟨.info, s!"{c.correct.length} correct, {c.wrong.length} wrong, " ++
      s!"{c.missed.length} references not found ({s.collisionsResolved} collisions resolved)"⟩]

end Scoring

end PatternAudit
