/-!
# Occurrences of patterns

A matcher reports, for one executable, that a pattern covers a range of addresses. The address
where the range ends is what two reports are compared by: it is called the location of the
occurrence.
-/

namespace PatternAudit

/-- A pattern found in an executable, from `start` to `stop`. -/
structure Occurrence where
  pattern : String
  start : UInt64
  stop : UInt64
  deriving DecidableEq

namespace Occurrence

/-- Lower-case hexadecimal digits, without leading zeros. -/
def hex (n : UInt64) : String :=
  String.ofList (Nat.toDigits 16 n.toNat)

/-- The line that lists an occurrence: the two addresses, then the pattern as it is. -/
def line (o : Occurrence) : String :=
  hex o.start ++ " - " ++ hex o.stop ++ " " ++ o.pattern

/-- Two occurrences are at the same place when they end at the same address. -/
def samePlace (a b : Occurrence) : Bool :=
  a.stop == b.stop

/-- Ascending by start address; occurrences with equal starts keep their order. -/
def sortByStart (os : List Occurrence) : List Occurrence :=
  os.mergeSort fun a b => decide (a.start ≤ b.start)

end Occurrence

end PatternAudit
