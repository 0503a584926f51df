import Std.Data.HashMap
import PatternAudit.Occurrence

/-!
# How often each pattern occurs

The frequencies of a list of occurrences count, for every pattern name, the occurrences that carry
it. They give the order in which colliding occurrences are preferred: a rare pattern says more
about the place where it is found than a common one.
-/

namespace PatternAudit

/-- The number of occurrences of each pattern. -/
structure Frequencies where
  counts : Std.HashMap String Nat

namespace Frequencies

def empty : Frequencies := ⟨∅⟩

/-- One more occurrence of a pattern. -/
def add (f : Frequencies) (pattern : String) : Frequencies :=
  ⟨f.counts.insert pattern (f.counts.getD pattern 0 + 1)⟩

def ofList (os : List Occurrence) : Frequencies :=
  os.foldl (fun f o => f.add o.pattern) empty

/-- A pattern that does not occur has count `0`. -/
def count (f : Frequencies) (pattern : String) : Nat :=
  f.counts.getD pattern 0

/-- The number of distinct patterns. -/
def size (f : Frequencies) : Nat :=
  f.counts.size

def isEmpty (f : Frequencies) : Bool :=
  f.counts.isEmpty

/-- The order of the ranking: frequent patterns first, then by name. -/
def rankedBefore (a b : String × Nat) : Bool :=
  ((compare b.2 a.2).then (compare a.1 b.1)).isLE

/-- Every pattern with its count, the most frequent first. -/
def ranked (f : Frequencies) : List (String × Nat) :=
  f.counts.toList.mergeSort rankedBefore

/-- The rarer pattern comes first, then the lesser name, then the lesser start. -/
def preference (f : Frequencies) (a b : Occurrence) : Ordering :=
  ((compare (f.count a.pattern) (f.count b.pattern)).then
    (compare a.pattern b.pattern)).then (compare a.start b.start)

end Frequencies

end PatternAudit
