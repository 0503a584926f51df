import Mathlib.Data.List.Nodup
import PatternAudit.Proofs.Classification
import PatternAudit.Proofs.Collision

/-!
# The index splits the positions

Each position of a list is entered into the index once, under the location of the occurrence that
stands there. Asked for all the locations of the list, each of them once, the index therefore gives
every position of the list exactly once (`flatMap_hits_perm`). What it gives for one location is
fixed by `PositionsAt`, which knows neither the table nor the order of entry.

The marks of a classification are set at such positions. Setting a mark does nothing where there is
none, so it has to be shown that this never happens. `markHits?` gives up at the first position
without a mark. It never gives up, and does what `markHits` does (`foldlM_markHits?`), because there
are as many marks as reference occurrences, at the start and after every detection.
-/

namespace PatternAudit

/-- `positions` are all the positions of the list at which an occurrence ends at the location,
ascending and without repetition. -/
structure PositionsAt (os : List Occurrence) (location : UInt64) (positions : List Nat) : Prop where
  ascending : positions.Pairwise fun i j => i < j
  mem_iff : ∀ i, i ∈ positions ↔ ∃ h : i < os.length, os[i].stop = location

theorem PositionsAt.unique {os : List Occurrence} {location : UInt64}
    {positions positions' : List Nat} (h : PositionsAt os location positions)
    (h' : PositionsAt os location positions') : positions = positions' := by
  apply h.ascending.eq_of_mem_iff h'.ascending
  intro i
  rw [h.mem_iff, h'.mem_iff]

namespace LocationIndex

variable {os probes : List Occurrence}

/-! ## One location -/

theorem positionsAt_hits (os : List Occurrence) (o : Occurrence) :
    PositionsAt os o.stop ((ofList os).hits o) := by
  refine ⟨?_, ?_⟩
  · rw [hits_ofList]
    exact List.pairwise_findIdxs
  · intro i
    rw [mem_hits_iff]
    constructor
    · rintro ⟨p, hp, hStop⟩
      obtain ⟨hi, rfl⟩ := List.getElem?_eq_some_iff.mp hp
      exact ⟨hi, hStop⟩
    · rintro ⟨hi, hStop⟩
      exact ⟨os[i], List.getElem?_eq_getElem hi, hStop⟩

theorem hits_ne_nil_iff {o : Occurrence} :
    (ofList os).hits o ≠ [] ↔ o.stop ∈ os.map Occurrence.stop := by
  rw [ne_eq, hits_eq_nil_iff, List.mem_map]
  simp

/-! ## All locations -/

/-- A position is found under one location only. -/
theorem disjoint_hits {a b : Occurrence} (h : a.stop ≠ b.stop) :
    ((ofList os).hits a).Disjoint ((ofList os).hits b) := by
  intro i ha hb
  obtain ⟨_, hStop⟩ := ((positionsAt_hits os a).mem_iff i).mp ha
  obtain ⟨_, hStop'⟩ := ((positionsAt_hits os b).mem_iff i).mp hb
  exact h (hStop.symm.trans hStop')

theorem nodup_flatMap_hits (h : (probes.map Occurrence.stop).Nodup) :
    (probes.flatMap (ofList os).hits).Nodup := by
  rw [List.nodup_flatMap]
  refine ⟨?_, ?_⟩
  · intro o _
    exact (positionsAt_hits os o).ascending.imp Nat.ne_of_lt
  · exact (List.pairwise_map.mp h).imp disjoint_hits

theorem mem_flatMap_hits_iff
    (h : ∀ location, location ∈ probes.map Occurrence.stop ↔ location ∈ os.map Occurrence.stop)
    {i : Nat} : i ∈ probes.flatMap (ofList os).hits ↔ i < os.length := by
  rw [List.mem_flatMap]
  constructor
  · rintro ⟨o, _, hi⟩
    exact lt_length_of_mem_hits hi
  · intro hi
    have hKnown : os[i].stop ∈ os.map Occurrence.stop := List.mem_map_of_mem (List.getElem_mem hi)
    obtain ⟨o, ho, hStop⟩ := List.mem_map.mp ((h _).mpr hKnown)
    exact ⟨o, ho, ((positionsAt_hits os o).mem_iff i).mpr ⟨hi, hStop.symm⟩⟩

theorem flatMap_hits_perm
    (h : (probes.map Occurrence.stop).Perm (os.map Occurrence.stop).eraseDups) :
    (probes.flatMap (ofList os).hits).Perm (List.range os.length) := by
  have hNodup : (probes.map Occurrence.stop).Nodup := h.nodup_iff.mpr (nodup_eraseDups _)
  rw [List.perm_ext_iff_of_nodup (nodup_flatMap_hits hNodup) List.nodup_range]
  intro i
  rw [List.mem_range]
  apply mem_flatMap_hits_iff
  intro location
  rw [h.mem_iff, List.mem_eraseDups]

end LocationIndex

/-! ## Setting marks -/

/-- Sets a mark, and gives up where there is none. -/
def mark? (marks : Array Bool) (position : Nat) : Option (Array Bool) :=
  if h : position < marks.size then some (marks.set position true h) else none

/-- Marks what a detection hits, and gives up at a position without a mark. -/
def markHits? (index : LocationIndex) (marks : Array Bool) (detection : Occurrence) :
    Option (Array Bool) :=
  (index.hits detection).foldlM mark? marks

theorem mark?_of_lt {marks : Array Bool} {position : Nat} (h : position < marks.size) :
    mark? marks position = some (marks.setIfInBounds position true) := by
  rw [mark?, dif_pos h, Array.setIfInBounds, dif_pos h]

theorem size_markHits (index : LocationIndex) (marks : Array Bool) (detection : Occurrence) :
    (markHits index marks detection).size = marks.size := by
  unfold markHits
  generalize index.hits detection = positions
  induction positions generalizing marks with
  | nil => rfl
  | cons position positions ih => rw [List.foldl_cons, ih, Array.size_setIfInBounds]

theorem markHits?_of_lt {index : LocationIndex} {marks : Array Bool} {detection : Occurrence}
    (h : ∀ i ∈ index.hits detection, i < marks.size) :
    markHits? index marks detection = some (markHits index marks detection) := by
  unfold markHits? markHits
  generalize index.hits detection = positions at h ⊢
  induction positions generalizing marks with
  | nil => rfl
  | cons position positions ih =>
    have hRest : ∀ i ∈ positions, i < (marks.setIfInBounds position true).size := by
      intro i hi
      rw [Array.size_setIfInBounds]
      exact h i (List.mem_cons_of_mem _ hi)
    rw [List.foldlM_cons, mark?_of_lt (h position List.mem_cons_self), List.foldl_cons]
    exact ih hRest

/-- With one mark for each reference occurrence, no detection makes the marking give up. -/
theorem foldlM_markHits? {reference : List Occurrence} {marks : Array Bool}
    (h : marks.size = reference.length) (detected : List Occurrence) :
    detected.foldlM (markHits? (.ofList reference)) marks =
      some (detected.foldl (markHits (.ofList reference)) marks) := by
  induction detected generalizing marks with
  | nil => rfl
  | cons d detected ih =>
    have hBound : ∀ i ∈ (LocationIndex.ofList reference).hits d, i < marks.size := by
      intro i hi
      rw [h]
      exact LocationIndex.lt_length_of_mem_hits hi
    rw [List.foldlM_cons, markHits?_of_lt hBound, List.foldl_cons]
    exact ih ((size_markHits _ _ _).trans h)

/-- Asked for an occurrence, the index gives all positions of those that end where it does,
ascending, and nothing else. Asked for the locations of the list, each once and in any order, it
splits the positions of the list into parts that are not empty. Every mark that a classification
sets is there to be set. -/
theorem hits_partition (os : List Occurrence) :
    (∀ (probe : Occurrence) (positions : List Nat),
        PositionsAt os probe.stop positions ↔ positions = (LocationIndex.ofList os).hits probe) ∧
      (∀ probes : List Occurrence,
        (probes.map Occurrence.stop).Perm (os.map Occurrence.stop).eraseDups →
          (probes.flatMap (LocationIndex.ofList os).hits).Perm (List.range os.length) ∧
            ∀ probe ∈ probes, (LocationIndex.ofList os).hits probe ≠ []) ∧
        ∀ detected : List Occurrence, ∃ marks : Array Bool,
          detected.foldlM (markHits? (.ofList os)) (Array.replicate os.length false) = some marks ∧
            (classify detected os).found =
              ((os.zip marks.toList).filter fun entry => entry.2).map Prod.fst ∧
            (classify detected os).missed =
              ((os.zip marks.toList).filter fun entry => !entry.2).map Prod.fst := by
  refine ⟨?_, ?_, ?_⟩
  · intro probe positions
    constructor
    · intro h
      exact h.unique (LocationIndex.positionsAt_hits os probe)
    · rintro rfl
      exact LocationIndex.positionsAt_hits os probe
  · intro probes h
    refine ⟨LocationIndex.flatMap_hits_perm h, ?_⟩
    intro probe hProbe
    rw [LocationIndex.hits_ne_nil_iff, ← List.mem_eraseDups, ← h.mem_iff]
    exact List.mem_map_of_mem hProbe
  · intro detected
    refine ⟨_, foldlM_markHits? Array.size_replicate detected, ?_, ?_⟩
    · unfold classify
      simp only [List.partition_eq_filter_filter]
    · unfold classify
      simp only [List.partition_eq_filter_filter]
      rfl

/-- Occurrences at three positions and two locations. -/
def threePositions : List Occurrence := [⟨"a", 0, 0x10⟩, ⟨"b", 0, 0x20⟩, ⟨"c", 0, 0x10⟩]

/-- The locations are asked for in another order than that in which the list has them. -/
theorem hits_partition_threePositions :
    ((LocationIndex.ofList threePositions).hits ⟨"z", 0, 0x20⟩ ++
        (LocationIndex.ofList threePositions).hits ⟨"z", 9, 0x10⟩).Perm [0, 1, 2] ∧
      (LocationIndex.ofList threePositions).hits ⟨"z", 0, 0x20⟩ ≠ [] := by
  obtain ⟨_, hSplit, _⟩ := hits_partition threePositions
  obtain ⟨hPerm, hNonempty⟩ := hSplit [⟨"z", 0, 0x20⟩, ⟨"z", 9, 0x10⟩] (by decide)
  have hRange : List.range threePositions.length = [0, 1, 2] := by decide
  rw [hRange] at hPerm
  exact ⟨by simpa using hPerm, hNonempty _ List.mem_cons_self⟩

end PatternAudit
