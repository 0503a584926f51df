import Mathlib.Data.List.Perm.Subperm
import PatternAudit.Proofs.Scoring

/-!
# Scorings of more occurrences

How a scoring changes when occurrences are added anywhere in the detections or in the reference.

* More detections (`findsWithin_of_sublist`): no reference occurrence that was found is lost, none
  that was missed appears anew, and there are at least as many correct detections. The correct
  detections themselves may change where collisions are resolved. One more detection changes the
  counts of the names, and with them the survivor at any other location. What does not change is at
  which locations there is a survivor (`mem_stops_scored_iff`), and the survivors of a list are as
  many as its locations.
* A longer reference (`correctWithin_of_sublist`): what is scored stays the same, and a detection
  can only turn from wrong to correct.
-/

namespace PatternAudit

open Occurrence (Met)

/-! ## Occurrences met by more others -/

theorem Occurrence.Met.mono {others others' : List Occurrence} {o : Occurrence}
    (hStops : ∀ location ∈ others.map Occurrence.stop, location ∈ others'.map Occurrence.stop)
    (h : o.Met others) : o.Met others' := by
  rw [Occurrence.met_iff] at h ⊢
  exact hStops _ h

theorem filter_met_sublist {others others' : List Occurrence}
    (hMet : ∀ o : Occurrence, o.Met others → o.Met others') (os : List Occurrence) :
    (os.filter fun o => o.Met others).Sublist (os.filter fun o => o.Met others') ∧
      (os.filter fun o => ¬ o.Met others').Sublist (os.filter fun o => ¬ o.Met others) := by
  refine ⟨List.monotone_filter_right os ?_, List.monotone_filter_right os ?_⟩
  · intro o ho
    rw [decide_eq_true_iff] at ho ⊢
    exact hMet o ho
  · intro o ho
    rw [decide_eq_true_iff] at ho ⊢
    exact fun h => ho (hMet o h)

/-! ## More detections -/

/-- `s'` finds what `s` finds, misses nothing else, and has at least as many correct detections. -/
structure Scoring.FindsWithin (s s' : Scoring) : Prop where
  found : s.classification.found.Sublist s'.classification.found
  missed : s'.classification.missed.Sublist s.classification.missed
  correct_le : s.classification.correct.length ≤ s'.classification.correct.length

theorem nodup_stops_correct {detected : List Occurrence} (reference : List Occurrence)
    (h : (detected.map Occurrence.stop).Nodup) :
    ((classify detected reference).correct.map Occurrence.stop).Nodup := by
  have hSublist : (classify detected reference).correct.Sublist detected := by
    rw [(splitsByLocation_classify detected reference).correct]
    exact List.filter_sublist
  exact (hSublist.map Occurrence.stop).nodup h

/-- If no location is detected twice, the correct detections are counted by their locations. -/
theorem length_correct_le_of_stops {detected detected' reference : List Occurrence}
    (hNodup : (detected.map Occurrence.stop).Nodup)
    (hStops : ∀ location ∈ detected.map Occurrence.stop,
      location ∈ detected'.map Occurrence.stop) :
    (classify detected reference).correct.length ≤
      (classify detected' reference).correct.length := by
  have hSubset : (classify detected reference).correct.map Occurrence.stop ⊆
      (classify detected' reference).correct.map Occurrence.stop := by
    intro location hLocation
    obtain ⟨hDetected, hReference⟩ := mem_stops_correct_iff.mp hLocation
    exact mem_stops_correct_iff.mpr ⟨hStops location hDetected, hReference⟩
  have hSubperm := (nodup_stops_correct reference hNodup).subperm hSubset
  simpa using hSubperm.length_le

theorem stops_scored_subset {detected detected' : List Occurrence}
    (h : detected.Sublist detected') (resolve : Bool) (reference : List Occurrence) :
    ∀ location ∈ (score resolve detected reference).scored.map Occurrence.stop,
      location ∈ (score resolve detected' reference).scored.map Occurrence.stop := by
  intro location hLocation
  rw [mem_stops_scored_iff] at hLocation ⊢
  exact (h.map Occurrence.stop).subset hLocation

theorem length_correct_score_le {detected detected' : List Occurrence}
    (h : detected.Sublist detected') (resolve : Bool) (reference : List Occurrence) :
    (score resolve detected reference).classification.correct.length ≤
      (score resolve detected' reference).classification.correct.length := by
  cases resolve with
  | false =>
    have hSublist : (classify detected reference).correct.Sublist
        (classify detected' reference).correct := by
      rw [(splitsByLocation_classify detected reference).correct,
        (splitsByLocation_classify detected' reference).correct]
      exact h.filter _
    exact hSublist.length_le
  | true =>
    have hNodup := (keeps_resolveCollisions detected).nodup_stops
    exact length_correct_le_of_stops hNodup (stops_scored_subset h true reference)

theorem findsWithin_of_sublist {detected detected' : List Occurrence}
    (h : detected.Sublist detected') (resolve : Bool) (reference : List Occurrence) :
    (score resolve detected reference).FindsWithin (score resolve detected' reference) := by
  have hMet (o : Occurrence) (ho : o.Met (score resolve detected reference).scored) :
      o.Met (score resolve detected' reference).scored :=
    ho.mono (stops_scored_subset h resolve reference)
  have hSplit := splitsByLocation_classify (score resolve detected reference).scored reference
  have hSplit' := splitsByLocation_classify (score resolve detected' reference).scored reference
  obtain ⟨hFound, hMissed⟩ := filter_met_sublist hMet reference
  rw [← hSplit.found, ← hSplit'.found] at hFound
  rw [← hSplit.missed, ← hSplit'.missed] at hMissed
  exact ⟨hFound, hMissed, length_correct_score_le h resolve reference⟩

/-! ## A longer reference -/

/-- `s'` scores the same detections as `s` and takes none for wrong that `s` takes for correct. -/
structure Scoring.CorrectWithin (s s' : Scoring) : Prop where
  scored : s.scored = s'.scored
  correct : s.classification.correct.Sublist s'.classification.correct
  wrong : s'.classification.wrong.Sublist s.classification.wrong
  patternsUsed : s.classification.patternsUsed ⊆ s'.classification.patternsUsed

theorem correctWithin_of_sublist {reference reference' : List Occurrence}
    (h : reference.Sublist reference') (resolve : Bool) (detected : List Occurrence) :
    (score resolve detected reference).CorrectWithin (score resolve detected reference') := by
  have hMet (o : Occurrence) (ho : o.Met reference) : o.Met reference' :=
    ho.mono (h.map Occurrence.stop).subset
  have hSplit := splitsByLocation_classify (score resolve detected reference).scored reference
  have hSplit' := splitsByLocation_classify (score resolve detected reference).scored reference'
  obtain ⟨hCorrect, hWrong⟩ := filter_met_sublist hMet (score resolve detected reference).scored
  rw [← hSplit.correct, ← hSplit'.correct] at hCorrect
  rw [← hSplit.wrong, ← hSplit'.wrong] at hWrong
  refine ⟨rfl, hCorrect, hWrong, ?_⟩
  intro name hName
  obtain ⟨o, ho, rfl⟩ := (hSplit.mem_patternsUsed name).mp hName
  exact (hSplit'.mem_patternsUsed _).mpr ⟨o, hCorrect.subset ho, rfl⟩

/-! ## Both sides -/

/-- Detections that are added anywhere lose no reference occurrence that was found, and do not make
the correct ones fewer. Reference occurrences that are added anywhere turn no detection wrong. -/
theorem score_grows (resolve : Bool) :
    (∀ detected detected' reference : List Occurrence, detected.Sublist detected' →
      (score resolve detected reference).FindsWithin (score resolve detected' reference)) ∧
    (∀ detected reference reference' : List Occurrence, reference.Sublist reference' →
      (score resolve detected reference).CorrectWithin (score resolve detected reference')) := by
  refine ⟨?_, ?_⟩
  · intro detected detected' reference h
    exact findsWithin_of_sublist h resolve reference
  · intro detected reference reference' h
    exact correctWithin_of_sublist h resolve detected

/-- Two patterns that collide. -/
def colliding : List Occurrence :=
  [⟨"memcpy", 16, 32⟩, ⟨"strlen", 24, 32⟩]

/-- With one detection more `strlen` is the rarer pattern. -/
def collidingMore : List Occurrence :=
  [⟨"memcpy", 16, 32⟩, ⟨"memcpy", 48, 64⟩, ⟨"strlen", 24, 32⟩]

theorem resolveCollisions_colliding : resolveCollisions colliding = [⟨"memcpy", 16, 32⟩] :=
  (keeps_resolveCollisions colliding).unique (by decide +kernel)

theorem resolveCollisions_collidingMore :
    resolveCollisions collidingMore = [⟨"strlen", 24, 32⟩, ⟨"memcpy", 48, 64⟩] :=
  (keeps_resolveCollisions collidingMore).unique (by decide +kernel)

/-- The correct detection at a location is another one after a detection has been added, but there
still is one. -/
theorem score_grows_colliding :
    colliding.Sublist collidingMore ∧
      (score true colliding [⟨"free", 20, 32⟩]).scored = [⟨"memcpy", 16, 32⟩] ∧
      (score true collidingMore [⟨"free", 20, 32⟩]).scored =
        [⟨"strlen", 24, 32⟩, ⟨"memcpy", 48, 64⟩] ∧
      (score true colliding [⟨"free", 20, 32⟩]).FindsWithin
        (score true collidingMore [⟨"free", 20, 32⟩]) ∧
      [⟨"free", 20, 32⟩].Sublist [⟨"exit", 60, 64⟩, (⟨"free", 20, 32⟩ : Occurrence)] ∧
      (score true collidingMore [⟨"free", 20, 32⟩]).CorrectWithin
        (score true collidingMore [⟨"exit", 60, 64⟩, ⟨"free", 20, 32⟩]) := by
  have hDetected : colliding.Sublist collidingMore := by decide
  have hReference : [⟨"free", 20, 32⟩].Sublist
      [⟨"exit", 60, 64⟩, (⟨"free", 20, 32⟩ : Occurrence)] := by
    decide
  exact ⟨hDetected, resolveCollisions_colliding, resolveCollisions_collidingMore,
    (score_grows true).1 _ _ _ hDetected, hReference, (score_grows true).2 _ _ _ hReference⟩

end PatternAudit
