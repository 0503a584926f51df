import PatternAudit.Classification

/-!
# The figures of a classification
-/

namespace PatternAudit

/-- The sizes of the four lists of a classification, and how many patterns were used. -/
structure Summary where
  correct : Nat
  wrong : Nat
  found : Nat
  missed : Nat
  patternsUsed : Nat

/-- A share of a whole, and `0` where there is nothing to share. -/
def ratio (part whole : Nat) : Float :=
  if whole = 0 then 0.0 else part.toFloat / whole.toFloat

namespace Summary

def ofClassification (c : Classification) : Summary where
  correct := c.correct.length
  wrong := c.wrong.length
  found := c.found.length
  missed := c.missed.length
  patternsUsed := c.patternsUsed.length

/-- Every place that was detected or should have been, counted once per record. -/
def total (s : Summary) : Nat :=
  s.correct + s.missed + s.wrong

def correctFraction (s : Summary) : Float := ratio s.correct s.total

def missedFraction (s : Summary) : Float := ratio s.missed s.total

def wrongFraction (s : Summary) : Float := ratio s.wrong s.total

/-- The share of detections that are correct. -/
def precisionRatio (s : Summary) : Float := ratio s.correct (s.correct + s.wrong)

/-- The share of reference occurrences that are found. -/
def recallRatio (s : Summary) : Float := ratio s.found (s.found + s.missed)

def isEmpty (s : Summary) : Bool :=
  s.total == 0

end Summary

end PatternAudit
