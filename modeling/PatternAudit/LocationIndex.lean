import Std.Data.HashMap
import PatternAudit.Occurrence

/-!
# Positions by location

The index of a list tells for each location at which positions of the list an occurrence ends
there. It is built once and then asked for every detection.
-/

namespace PatternAudit

/-- The positions of a list under the location of the occurrence that stands there. -/
structure LocationIndex where
  positions : Std.HashMap UInt64 (Array Nat)

namespace LocationIndex

def empty : LocationIndex := ⟨∅⟩

/-- Records that `o` stands at `position`. -/
def add (index : LocationIndex) (o : Occurrence) (position : Nat) : LocationIndex :=
  ⟨index.positions.insert o.stop ((index.positions.getD o.stop #[]).push position)⟩

def ofList (os : List Occurrence) : LocationIndex :=
  os.zipIdx.foldl (fun index entry => index.add entry.1 entry.2) empty

/-- The positions, ascending, of the occurrences at the place of `o`. -/
def hits (index : LocationIndex) (o : Occurrence) : List Nat :=
  (index.positions.getD o.stop #[]).toList

end LocationIndex

end PatternAudit
