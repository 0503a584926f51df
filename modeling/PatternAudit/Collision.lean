import PatternAudit.Frequency

/-!
# Collisions

Occurrences that end at the same location collide. Resolving the collisions of a list keeps one
occurrence per location, the one that is least in the order of preference given by the frequencies
of the whole list. Survivors stand in the order in which their locations are first met, whichever
of the colliding occurrences wins.
-/

namespace PatternAudit

/-- The survivors so far, with the slot that each location was given when it was first met. The
slots are an index of the survivors, so that no slot points beyond them. -/
structure Survivors where
  slots : Std.HashMap UInt64 Nat
  kept : Array Occurrence
  slot_eq : ∀ location, slots[location]? = kept.findIdx? fun o => o.stop == location

namespace Survivors

def empty : Survivors := ⟨∅, #[], fun _ => by simp⟩

theorem slot_lt (s : Survivors) {location : UInt64} {slot : Nat}
    (h : s.slots[location]? = some slot) : slot < s.kept.size := by
  rw [s.slot_eq, Array.findIdx?_eq_some_iff_getElem] at h
  exact h.1

theorem stop_slot (s : Survivors) {location : UInt64} {slot : Nat}
    (h : s.slots[location]? = some slot) (bound : slot < s.kept.size) :
    s.kept[slot].stop = location := by
  rw [s.slot_eq, Array.findIdx?_eq_some_iff_getElem] at h
  obtain ⟨_, hStop, _⟩ := h
  exact eq_of_beq hStop

theorem slot_eq_push (s : Survivors) {o : Occurrence} (h : s.slots[o.stop]? = none)
    (location : UInt64) :
    (s.slots.insert o.stop s.kept.size)[location]? =
      (s.kept.push o).findIdx? fun p => p.stop == location := by
  rw [Std.HashMap.getElem?_insert, Array.findIdx?_push, ← s.slot_eq]
  by_cases hEq : o.stop = location
  · subst hEq
    simp [h]
  · simp [hEq]

/-- What is put into a slot ends where the occurrence before it did, and the index reads no more of
it than that. -/
theorem slot_eq_set (s : Survivors) {o : Occurrence} {slot : Nat}
    (h : s.slots[o.stop]? = some slot) (bound : slot < s.kept.size) (location : UInt64) :
    s.slots[location]? = (s.kept.set slot o).findIdx? fun p => p.stop == location := by
  have hStops : (s.kept.set slot o).map Occurrence.stop = s.kept.map Occurrence.stop := by
    apply Array.ext
    · simp
    · intro i _ _
      simp only [Array.getElem_map, Array.getElem_set]
      split
      · subst i
        exact (s.stop_slot h bound).symm
      · rfl
  have hIndex (xs : Array Occurrence) : xs.findIdx? (fun p => p.stop == location) =
      (xs.map Occurrence.stop).findIdx? (· == location) := by
    rw [Array.findIdx?_map]
    rfl
  rw [s.slot_eq, hIndex, hIndex, hStops]

/-- A new location gets the next slot; at a known one the preferred occurrence stays. -/
def add (frequencies : Frequencies) (s : Survivors) (o : Occurrence) : Survivors :=
  match h : s.slots[o.stop]? with
  | none => ⟨s.slots.insert o.stop s.kept.size, s.kept.push o, s.slot_eq_push h⟩
  | some slot =>
    have bound := s.slot_lt h
    if frequencies.preference o s.kept[slot] = .lt then
      ⟨s.slots, s.kept.set slot o, s.slot_eq_set h bound⟩
    else s

end Survivors

/-- One occurrence for each location of the list. -/
def resolveCollisions (os : List Occurrence) : List Occurrence :=
  (os.foldl (Survivors.add (Frequencies.ofList os)) Survivors.empty).kept.toList

end PatternAudit
