import PatternAudit.Proofs.Classification
import PatternAudit.Proofs.Collision
import PatternAudit.Report.Delimited
import PatternAudit.Scoring

/-!
# What scoring depends on

Scoring resolves collisions or leaves them and then classifies. Two laws relate two scorings of the
same occurrences.

* Scorings of lists that differ in their order are `Scoring.Reordered`: all figures are the same,
  and so is the row of a report. With collisions left in this is clear. With collisions resolved, the
  survivor of a location is found by a run through the list. It is the same one in every order,
  because the least at a location is told without the order (`Keeps.mem_iff`).
* What resolving collisions leaves of a classification is told by `Classification.Condenses`: the
  same references are found, and the same locations are right and wrong. Nothing changes exactly if
  no location is detected twice (`classify_resolveCollisions_eq_iff`).
-/

namespace PatternAudit

/-! ## Another order of the input -/

theorem Classification.Reordered.summary_eq {c c' : Classification} (h : c.Reordered c') :
    Summary.ofClassification c = Summary.ofClassification c' := by
  unfold Summary.ofClassification
  rw [h.correct.length_eq, h.wrong.length_eq, h.found.length_eq, h.missed.length_eq,
    h.patternsUsed]

/-- Two scorings with the same figures whose lists differ in their order at most. -/
structure Scoring.Reordered (s s' : Scoring) : Prop where
  detectedCount : s.detectedCount = s'.detectedCount
  collisionsResolved : s.collisionsResolved = s'.collisionsResolved
  summary : s.summary = s'.summary
  scored : s.scored.Perm s'.scored
  classification : s.classification.Reordered s'.classification

theorem scored_perm {detected detected' : List Occurrence} (h : detected.Perm detected')
    (resolve : Bool) (reference reference' : List Occurrence) :
    (score resolve detected reference).scored.Perm
      (score resolve detected' reference').scored := by
  unfold score
  cases resolve with
  | false => simpa using h
  | true => simpa using resolveCollisions_perm h

/-- Detections and reference in another order give the same figures, the same row in every style,
and the same lists up to their order. -/
theorem score_reordered {detected detected' reference reference' : List Occurrence}
    (hDetected : detected'.Perm detected) (hReference : reference'.Perm reference)
    (resolve : Bool) :
    (score resolve detected' reference').Reordered (score resolve detected reference) ∧
      ∀ style run, Report.row? style run (score resolve detected' reference').summary =
        Report.row? style run (score resolve detected reference).summary := by
  have hScored := scored_perm hDetected resolve reference' reference
  have hClassification : (score resolve detected' reference').classification.Reordered
      (score resolve detected reference).classification :=
    classify_reordered hScored hReference
  have hSummary := hClassification.summary_eq
  have hCollisions : (score resolve detected' reference').collisionsResolved =
      (score resolve detected reference).collisionsResolved := by
    unfold Scoring.collisionsResolved
    rw [hScored.length_eq]
    exact congrArg (· - _) hDetected.length_eq
  refine ⟨⟨hDetected.length_eq, hCollisions, hSummary, hScored, hClassification⟩, ?_⟩
  intro style run
  exact congrArg (Report.row? style run) hSummary

/-- Three detections with a collision, and two reference occurrences, both read backwards. -/
theorem score_reordered_backwards :
    [⟨"memcpy", 48, 64⟩, ⟨"strlen", 24, 32⟩, ⟨"memcpy", 16, 32⟩].Perm
        [⟨"memcpy", 16, 32⟩, ⟨"strlen", 24, 32⟩, (⟨"memcpy", 48, 64⟩ : Occurrence)] ∧
      [⟨"free", 80, 96⟩, ⟨"strlen", 20, 32⟩].Perm
        [⟨"strlen", 20, 32⟩, (⟨"free", 80, 96⟩ : Occurrence)] ∧
      (score true [⟨"memcpy", 48, 64⟩, ⟨"strlen", 24, 32⟩, ⟨"memcpy", 16, 32⟩]
          [⟨"free", 80, 96⟩, ⟨"strlen", 20, 32⟩]).Reordered
        (score true [⟨"memcpy", 16, 32⟩, ⟨"strlen", 24, 32⟩, ⟨"memcpy", 48, 64⟩]
          [⟨"strlen", 20, 32⟩, ⟨"free", 80, 96⟩]) ∧
      ∀ style run,
        Report.row? style run
          (score true [⟨"memcpy", 48, 64⟩, ⟨"strlen", 24, 32⟩, ⟨"memcpy", 16, 32⟩]
            [⟨"free", 80, 96⟩, ⟨"strlen", 20, 32⟩]).summary =
        Report.row? style run
          (score true [⟨"memcpy", 16, 32⟩, ⟨"strlen", 24, 32⟩, ⟨"memcpy", 48, 64⟩]
            [⟨"strlen", 20, 32⟩, ⟨"free", 80, 96⟩]).summary :=
  ⟨List.reverse_perm [_, _, _], List.reverse_perm [_, _],
    score_reordered (List.reverse_perm [_, _, _]) (List.reverse_perm [_, _]) true⟩

/-! ## With and without collisions -/

/-- `c` has every location of `c'` on the same side, once, and nothing that `c'` does not have. The
reference is split alike. -/
structure Classification.Condenses (c c' : Classification) : Prop where
  found : c.found = c'.found
  missed : c.missed = c'.missed
  stops_correct : ∀ location, location ∈ c.correct.map Occurrence.stop ↔
    location ∈ c'.correct.map Occurrence.stop
  stops_wrong : ∀ location, location ∈ c.wrong.map Occurrence.stop ↔
    location ∈ c'.wrong.map Occurrence.stop
  nodup_stops : ((c.correct ++ c.wrong).map Occurrence.stop).Nodup
  correct : c.correct ⊆ c'.correct
  wrong : c.wrong ⊆ c'.wrong
  patternsUsed : c.patternsUsed ⊆ c'.patternsUsed

theorem met_resolveCollisions (os : List Occurrence) (o : Occurrence) :
    o.Met (resolveCollisions os) ↔ o.Met os :=
  Occurrence.met_congr (keeps_resolveCollisions os).mem_stops_iff o

/-- Resolving collisions leaves a detection at every location. -/
theorem mem_stops_scored_iff (resolve : Bool) (detected reference : List Occurrence)
    (location : UInt64) :
    location ∈ (score resolve detected reference).scored.map Occurrence.stop ↔
      location ∈ detected.map Occurrence.stop := by
  cases resolve with
  | false => exact Iff.rfl
  | true => exact (keeps_resolveCollisions detected).mem_stops_iff location

theorem condenses_classify (detected reference : List Occurrence) :
    (classify (resolveCollisions detected) reference).Condenses
      (classify detected reference) := by
  have hKeeps := keeps_resolveCollisions detected
  have hMem := resolveCollisions_subset detected
  have h := splitsByLocation_classify (resolveCollisions detected) reference
  have h' := splitsByLocation_classify detected reference
  have hCorrect : (classify (resolveCollisions detected) reference).correct ⊆
      (classify detected reference).correct := by
    rw [h.correct, h'.correct]
    exact List.filter_subset _ hMem
  refine ⟨?_, ?_, ?_, ?_, ?_, hCorrect, ?_, ?_⟩
  · rw [h.found, h'.found]
    simp only [met_resolveCollisions]
  · rw [h.missed, h'.missed]
    simp only [met_resolveCollisions]
  · intro location
    rw [mem_stops_correct_iff, mem_stops_correct_iff, hKeeps.mem_stops_iff]
  · intro location
    rw [mem_stops_wrong_iff, mem_stops_wrong_iff, hKeeps.mem_stops_iff]
  · have hPerm := correct_append_wrong_perm (resolveCollisions detected) reference
    exact (hPerm.map Occurrence.stop).nodup_iff.mpr hKeeps.nodup_stops
  · rw [h.wrong, h'.wrong]
    exact List.filter_subset _ hMem
  · intro name hName
    obtain ⟨o, ho, rfl⟩ := (h.mem_patternsUsed name).mp hName
    exact (h'.mem_patternsUsed _).mpr ⟨o, hCorrect ho, rfl⟩

theorem classify_resolveCollisions_eq_iff (detected reference : List Occurrence) :
    classify (resolveCollisions detected) reference = classify detected reference ↔
      (detected.map Occurrence.stop).Nodup := by
  constructor
  · intro hEq
    -- Both sides together are what was classified, so the survivors are all there is.
    have hResolved := correct_append_wrong_perm (resolveCollisions detected) reference
    rw [hEq] at hResolved
    have hPerm := hResolved.symm.trans (correct_append_wrong_perm detected reference)
    exact (hPerm.map Occurrence.stop).nodup_iff.mp (keeps_resolveCollisions detected).nodup_stops
  · intro hNodup
    rw [resolveCollisions_eq_self hNodup]

/-- Resolving collisions changes neither which references are found nor which locations are right or
wrong. It changes the classification exactly if some location is detected twice. -/
theorem score_condenses (detected reference : List Occurrence) :
    (score true detected reference).classification.Condenses
        (score false detected reference).classification ∧
      (score true detected reference).summary.recallRatio =
        (score false detected reference).summary.recallRatio ∧
      ((score true detected reference).classification =
          (score false detected reference).classification ↔
        (detected.map Occurrence.stop).Nodup) := by
  have hCondenses : (score true detected reference).classification.Condenses
      (score false detected reference).classification :=
    condenses_classify detected reference
  refine ⟨hCondenses, ?_, classify_resolveCollisions_eq_iff detected reference⟩
  unfold Summary.recallRatio Scoring.summary Summary.ofClassification
  rw [hCondenses.found, hCondenses.missed]

end PatternAudit
