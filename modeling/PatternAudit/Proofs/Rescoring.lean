import Mathlib.Data.List.Perm.Subperm
import PatternAudit.Proofs.Scoring

/-!
# Scoring once more

What has been scored can be scored again: with the survivors for detections, with detections and
reference exchanged, or with the lists of the first scoring for input. Nothing new comes of it.

* Survivors survive (`resolveCollisions_fixed`). The second time names are counted among the
  survivors alone, so that another occurrence of a location might be preferred. But only one is left
  at each location, and only a list of which this is true keeps its length.
* Exchanging the sides exchanges the results (`classify_exchanged`). The detections are looked up in
  an index, the reference is marked through positions; both ask whether the other list has an
  occurrence at the same place.
* The parts of a scoring, put together again, are split as before (`score_again`). They are the
  input in another order. Within each part the order is that of the input, and it is kept when the
  part is taken out once more (`filter_met_parts`).
-/

namespace PatternAudit

open Occurrence (Met)

/-! ## Survivors of survivors -/

theorem resolveCollisions_eq_self_iff (os : List Occurrence) :
    resolveCollisions os = os ↔ (os.map Occurrence.stop).Nodup := by
  constructor
  · intro hSelf
    have hNodup := (keeps_resolveCollisions os).nodup_stops
    rwa [hSelf] at hNodup
  · exact resolveCollisions_eq_self

/-- A collision makes the list shorter: as long as the list, the survivors would be all of it. -/
theorem nodup_stops_iff_length (os : List Occurrence) :
    (os.map Occurrence.stop).Nodup ↔ (resolveCollisions os).length = os.length := by
  have hKeeps := keeps_resolveCollisions os
  constructor
  · intro hNodup
    rw [resolveCollisions_eq_self hNodup]
  · intro hLength
    have hSubperm := hKeeps.nodup.subperm (resolveCollisions_subset os)
    have hPerm := hSubperm.perm_of_length_le hLength.ge
    exact (hPerm.map Occurrence.stop).nodup_iff.mp hKeeps.nodup_stops

/-- Resolving collisions a second time changes nothing. It changes nothing the first time exactly if
no location occurs twice, and this can be told from the number of survivors. -/
theorem resolveCollisions_fixed (os : List Occurrence) :
    resolveCollisions (resolveCollisions os) = resolveCollisions os ∧
      (resolveCollisions os = os ↔ (os.map Occurrence.stop).Nodup) ∧
      ((os.map Occurrence.stop).Nodup ↔ (resolveCollisions os).length = os.length) := by
  refine ⟨?_, resolveCollisions_eq_self_iff os, nodup_stops_iff_length os⟩
  exact resolveCollisions_eq_self (keeps_resolveCollisions os).nodup_stops

/-! ## Sides exchanged -/

theorem correct_exchanged (detected reference : List Occurrence) :
    (classify reference detected).correct = (classify detected reference).found := by
  have h := splitsByLocation_classify detected reference
  have h' := splitsByLocation_classify reference detected
  rw [h'.correct, h.found]

theorem wrong_exchanged (detected reference : List Occurrence) :
    (classify reference detected).wrong = (classify detected reference).missed := by
  have h := splitsByLocation_classify detected reference
  have h' := splitsByLocation_classify reference detected
  rw [h'.wrong, h.missed]

/-- If the reference is taken for detections and the detections for the reference, what was found is
correct, what was missed is wrong, and the other way round. -/
theorem classify_exchanged (detected reference : List Occurrence) :
    (classify reference detected).correct = (classify detected reference).found ∧
      (classify reference detected).wrong = (classify detected reference).missed ∧
      (classify reference detected).found = (classify detected reference).correct ∧
      (classify reference detected).missed = (classify detected reference).wrong :=
  ⟨correct_exchanged detected reference, wrong_exchanged detected reference,
    (correct_exchanged reference detected).symm, (wrong_exchanged reference detected).symm⟩

/-! ## The lists of a scoring as its input -/

/-- Both parts of the detections, the correct ones first. -/
def Classification.detections (c : Classification) : List Occurrence :=
  c.correct ++ c.wrong

/-- Both parts of the reference, what was found first. -/
def Classification.references (c : Classification) : List Occurrence :=
  c.found ++ c.missed

/-- Scores the lists that a scoring has made of its input. -/
def Scoring.again (resolve : Bool) (s : Scoring) : Scoring :=
  score resolve s.classification.detections s.classification.references

/-- The parts of a list come out of their union as they were, also when the other side has been
reordered. -/
theorem filter_met_parts (os : List Occurrence) {others others' : List Occurrence}
    (h : others'.Perm others) :
    ((os.filter fun o => o.Met others) ++ os.filter fun o => ¬ o.Met others).filter
        (fun o => o.Met others') = (os.filter fun o => o.Met others) ∧
      ((os.filter fun o => o.Met others) ++ os.filter fun o => ¬ o.Met others).filter
        (fun o => ¬ o.Met others') = os.filter fun o => ¬ o.Met others := by
  have hMet : ∀ o : Occurrence, o.Met others' ↔ o.Met others :=
    Occurrence.met_congr fun _ => (h.map Occurrence.stop).mem_iff
  simp only [hMet, List.filter_append, List.filter_filter]
  constructor
  · simp
  · simp

theorem splitsByLocation_parts (detected reference : List Occurrence) :
    SplitsByLocation (classify detected reference).detections
      (classify detected reference).references (classify detected reference) := by
  have h := splitsByLocation_classify detected reference
  have hDetected := filter_met_parts detected (found_append_missed_perm detected reference)
  have hReference := filter_met_parts reference (correct_append_wrong_perm detected reference)
  rw [← h.correct, ← h.wrong] at hDetected
  rw [← h.found, ← h.missed] at hReference
  exact ⟨hDetected.1.symm, hDetected.2.symm, hReference.1.symm, hReference.2.symm,
    h.mem_patternsUsed, h.ascending⟩

theorem classify_parts (detected reference : List Occurrence) :
    classify (classify detected reference).detections (classify detected reference).references =
      classify detected reference :=
  (splitsByLocation_classify _ _).unique (splitsByLocation_parts detected reference)

/-- Where collisions are resolved, there are none among what has been scored. -/
theorem scored_again (resolve : Bool) (detected reference : List Occurrence) :
    ((score resolve detected reference).again resolve).scored =
      (score resolve detected reference).classification.detections := by
  cases resolve with
  | false => rfl
  | true =>
    apply resolveCollisions_eq_self
    exact (condenses_classify detected reference).nodup_stops

/-- Scoring the lists of a scoring drops nothing, resolves no collision and gives the same
classification, list by list, with the same figures. -/
theorem score_again (resolve : Bool) (detected reference : List Occurrence) :
    ((score resolve detected reference).again resolve).scored =
        (score resolve detected reference).classification.detections ∧
      ((score resolve detected reference).again resolve).collisionsResolved = 0 ∧
      ((score resolve detected reference).again resolve).classification =
        (score resolve detected reference).classification ∧
      ((score resolve detected reference).again resolve).summary =
        (score resolve detected reference).summary := by
  have hScored := scored_again resolve detected reference
  have hClassification : ((score resolve detected reference).again resolve).classification =
      (score resolve detected reference).classification := by
    change classify ((score resolve detected reference).again resolve).scored _ = _
    rw [hScored]
    exact classify_parts _ reference
  refine ⟨hScored, ?_, hClassification, congrArg Summary.ofClassification hClassification⟩
  unfold Scoring.collisionsResolved
  rw [hScored]
  exact Nat.sub_self _

end PatternAudit
