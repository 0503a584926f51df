import Mathlib.Data.List.Basic
import PatternAudit.LocationIndex

/-!
# What the index finds

The index collects positions location by location while the list is read once. Asked for an
occurrence, it answers with what a search through the whole list would find (`hits_ofList`): the
positions, ascending, of all occurrences that end where the one asked for does. In particular every
position lies within the list (`lt_length_of_mem_hits`).
-/

namespace PatternAudit.LocationIndex

theorem hits_empty (o : Occurrence) : empty.hits o = [] := by
  unfold empty hits
  rw [Std.HashMap.getD_empty]

theorem hits_add (index : LocationIndex) (p o : Occurrence) (position : Nat) :
    (index.add p position).hits o =
      index.hits o ++ if p.stop = o.stop then [position] else [] := by
  unfold add hits
  rw [Std.HashMap.getD_insert]
  by_cases h : p.stop = o.stop
  · simp [h]
  · simp [h]

theorem hits_foldl_add (index : LocationIndex) (os : List Occurrence) (first : Nat)
    (o : Occurrence) :
    ((os.zipIdx first).foldl (fun index entry => index.add entry.1 entry.2) index).hits o =
      index.hits o ++ os.findIdxs (fun p => p.stop == o.stop) first := by
  induction os generalizing index first with
  | nil => simp
  | cons p os ih =>
    rw [List.zipIdx_cons, List.foldl_cons, ih, hits_add, List.findIdxs_cons]
    by_cases h : p.stop = o.stop
    · simp [h]
    · simp [h]

theorem hits_ofList (os : List Occurrence) (o : Occurrence) :
    (ofList os).hits o = os.findIdxs fun p => p.stop == o.stop := by
  rw [ofList, hits_foldl_add, hits_empty, List.nil_append]

theorem mem_hits_iff {os : List Occurrence} {o : Occurrence} {i : Nat} :
    i ∈ (ofList os).hits o ↔ ∃ p, os[i]? = some p ∧ p.stop = o.stop := by
  rw [hits_ofList, List.mem_findIdxs_iff_exists_getElem_pos]
  simp only [beq_iff_eq, List.getElem?_eq_some_iff]
  constructor
  · rintro ⟨hi, hStop⟩
    exact ⟨os[i], ⟨hi, rfl⟩, hStop⟩
  · rintro ⟨p, ⟨hi, rfl⟩, hStop⟩
    exact ⟨hi, hStop⟩

theorem lt_length_of_mem_hits {os : List Occurrence} {o : Occurrence} {i : Nat}
    (h : i ∈ (ofList os).hits o) : i < os.length := by
  obtain ⟨p, hp, _⟩ := mem_hits_iff.mp h
  exact (List.getElem?_eq_some_iff.mp hp).1

theorem hits_eq_nil_iff {os : List Occurrence} {o : Occurrence} :
    (ofList os).hits o = [] ↔ ∀ p ∈ os, p.stop ≠ o.stop := by
  rw [hits_ofList, List.findIdxs_eq_nil_iff]
  simp only [beq_eq_false_iff_ne]

end PatternAudit.LocationIndex
