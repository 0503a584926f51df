import Mathlib.Data.List.Sort
import PatternAudit.Classification
import PatternAudit.Proofs.ByteOrder
import PatternAudit.Proofs.LocationIndex

/-!
# Classifying is comparing all pairs

Detections are classified through an index of the reference and an array of marks, one for each
reference occurrence. The result is the one that comparing every detection with every reference
occurrence gives, with order and repetitions on both sides.

* `SplitsByLocation detected reference c` says this of a classification `c`, with no mention of
  index and marks. One classification has it (`SplitsByLocation.unique`), and `classify` gives it
  (`splitsByLocation_classify`).
* `toList_markHits` is what one detection does to the marks, `toList_marks` what all of them do: a
  reference occurrence is marked if some detection ends where it does.
* `classify_reordered`: lists in another order give the same classification in another order.

Duplicates and several occurrences at one location are allowed throughout.
-/

namespace PatternAudit

/-- Some occurrence of the list ends where `o` does. -/
def Occurrence.Met (others : List Occurrence) (o : Occurrence) : Prop :=
  ∃ p ∈ others, p.stop = o.stop

instance (others : List Occurrence) : DecidablePred (Occurrence.Met others) :=
  fun o => inferInstanceAs (Decidable (∃ p ∈ others, p.stop = o.stop))

open Occurrence (Met)

/-- Only the locations of the list matter. -/
theorem Occurrence.met_iff {others : List Occurrence} {o : Occurrence} :
    o.Met others ↔ o.stop ∈ others.map Occurrence.stop := by
  rw [List.mem_map]
  rfl

theorem Occurrence.met_congr {others others' : List Occurrence}
    (h : ∀ location, location ∈ others.map Occurrence.stop ↔
      location ∈ others'.map Occurrence.stop) (o : Occurrence) :
    o.Met others ↔ o.Met others' := by
  rw [met_iff, met_iff, h]

/-! ## Names -/

theorem mem_distinctNames {names : List String} {name : String} :
    name ∈ distinctNames names ↔ name ∈ names := by
  unfold distinctNames
  rw [Std.TreeSet.mem_toList, ← Std.TreeSet.contains_iff_mem, Std.TreeSet.contains_ofList,
    List.contains_iff_mem]

theorem distinctNames_ascending (names : List String) :
    (distinctNames names).Pairwise fun a b => Utf8.bytes a < Utf8.bytes b := by
  unfold distinctNames
  apply Std.TreeSet.ordered_toList.imp
  intro a b h
  exact Utf8.bytes_lt_iff.mpr (compare_lt_iff_lt.mp h)

/-! ## Marks -/

/-- A position outside the marks changes nothing. -/
theorem getElem?_mark (positions : List Nat) (marks : Array Bool) (i : Nat) :
    (positions.foldl (fun marks position => marks.setIfInBounds position true) marks)[i]? =
      if i ∈ positions then marks[i]?.map fun _ => true else marks[i]? := by
  induction positions generalizing marks with
  | nil => simp
  | cons position positions ih =>
    rw [List.foldl_cons, ih, Array.getElem?_setIfInBounds]
    by_cases hPosition : position = i
    · subst hPosition
      by_cases hBound : position < marks.size
      · simp [hBound]
      · simp [hBound]
    · simp [hPosition, Ne.symm hPosition]

/-- If the marks tell of each reference occurrence whether `mark` holds, then one more detection
adds the occurrences at its own place. -/
theorem toList_markHits {reference : List Occurrence} {marks : Array Bool}
    {mark : Occurrence → Bool} (h : marks.toList = reference.map mark) (detection : Occurrence) :
    (markHits (.ofList reference) marks detection).toList =
      reference.map fun r => mark r || detection.samePlace r := by
  apply List.ext_getElem?
  intro i
  have hMarks : marks[i]? = reference[i]?.map mark := by
    rw [← Array.getElem?_toList, h, List.getElem?_map]
  rw [Array.getElem?_toList, markHits, getElem?_mark, hMarks, List.getElem?_map]
  cases hr : reference[i]? with
  | none => simp
  | some r =>
    have hHit : i ∈ (LocationIndex.ofList reference).hits detection ↔ r.stop = detection.stop := by
      simp [LocationIndex.mem_hits_iff, hr]
    by_cases hStop : r.stop = detection.stop
    · simp [hHit, hStop, Occurrence.samePlace]
    · simp [hHit, hStop, Ne.symm hStop, Occurrence.samePlace]

theorem toList_foldl_markHits {reference : List Occurrence} {marks : Array Bool}
    {mark : Occurrence → Bool} (h : marks.toList = reference.map mark)
    (detected : List Occurrence) :
    (detected.foldl (markHits (.ofList reference)) marks).toList =
      reference.map fun r => mark r || detected.any fun d => d.samePlace r := by
  induction detected generalizing marks mark with
  | nil => simpa using h
  | cons d detected ih =>
    rw [List.foldl_cons, ih (toList_markHits h d)]
    simp only [List.any_cons, Bool.or_assoc]

/-- After all detections, a reference occurrence is marked if some detection ends where it does. -/
theorem toList_marks (detected reference : List Occurrence) :
    (detected.foldl (markHits (.ofList reference))
      (Array.replicate reference.length false)).toList =
      reference.map fun r => decide (r.Met detected) := by
  have hStart : (Array.replicate reference.length false).toList = reference.map fun _ => false := by
    simp
  rw [toList_foldl_markHits hStart]
  apply List.map_congr_left
  intro r _
  rw [Bool.false_or, Bool.eq_iff_iff, decide_eq_true_iff]
  simp [Met, Occurrence.samePlace]

theorem map_fst_filter_zip_map {α : Type} (l : List α) (mark : α → Bool)
    (select : Bool → Bool) :
    ((l.zip (l.map mark)).filter fun entry => select entry.2).map Prod.fst =
      l.filter fun a => select (mark a) := by
  induction l with
  | nil => rfl
  | cons a l ih =>
    rw [List.map_cons, List.zip_cons_cons, List.filter_cons, List.filter_cons]
    split
    · rw [List.map_cons, ih]
    · exact ih

theorem not_isEmpty_hits (reference : List Occurrence) (o : Occurrence) :
    (!((LocationIndex.ofList reference).hits o).isEmpty) = decide (o.Met reference) := by
  rw [Bool.eq_iff_iff, decide_eq_true_iff, Bool.not_eq_true', ← Bool.not_eq_true,
    List.isEmpty_iff, LocationIndex.hits_eq_nil_iff]
  simp [Met]

/-! ## The definition without index and marks -/

/-- `c` is what comparing every detection with every reference occurrence gives. -/
structure SplitsByLocation (detected reference : List Occurrence) (c : Classification) : Prop where
  correct : c.correct = detected.filter fun o => o.Met reference
  wrong : c.wrong = detected.filter fun o => ¬ o.Met reference
  found : c.found = reference.filter fun o => o.Met detected
  missed : c.missed = reference.filter fun o => ¬ o.Met detected
  mem_patternsUsed : ∀ name, name ∈ c.patternsUsed ↔ ∃ o ∈ c.correct, o.pattern = name
  ascending : c.patternsUsed.Pairwise fun a b => Utf8.bytes a < Utf8.bytes b

theorem splitsByLocation_classify (detected reference : List Occurrence) :
    SplitsByLocation detected reference (classify detected reference) := by
  unfold classify
  simp only [List.partition_eq_filter_filter, toList_marks, not_isEmpty_hits]
  refine ⟨rfl, ?_, ?_, ?_, ?_, ?_⟩
  · apply List.filter_congr
    intro o _
    simp
  · exact map_fst_filter_zip_map reference _ id
  · refine (map_fst_filter_zip_map reference _ not).trans ?_
    apply List.filter_congr
    intro o _
    simp
  · intro name
    rw [mem_distinctNames, List.mem_map]
  · exact distinctNames_ascending _

/-- Names that ascend are fixed by which names there are. -/
theorem eq_of_ascending {names names' : List String}
    (h : names.Pairwise fun a b => Utf8.bytes a < Utf8.bytes b)
    (h' : names'.Pairwise fun a b => Utf8.bytes a < Utf8.bytes b)
    (hMem : ∀ name, name ∈ names ↔ name ∈ names') : names = names' := by
  simp only [Utf8.bytes_lt_iff] at h h'
  exact h.eq_of_mem_iff h' hMem

theorem SplitsByLocation.unique {detected reference : List Occurrence} {c c' : Classification}
    (h : SplitsByLocation detected reference c) (h' : SplitsByLocation detected reference c') :
    c = c' := by
  have hCorrect : c.correct = c'.correct := h.correct.trans h'.correct.symm
  have hWrong : c.wrong = c'.wrong := h.wrong.trans h'.wrong.symm
  have hFound : c.found = c'.found := h.found.trans h'.found.symm
  have hMissed : c.missed = c'.missed := h.missed.trans h'.missed.symm
  have hNames : c.patternsUsed = c'.patternsUsed := by
    apply eq_of_ascending h.ascending h'.ascending
    intro name
    rw [h.mem_patternsUsed, h'.mem_patternsUsed, hCorrect]
  cases c
  cases c'
  simp only at hCorrect hWrong hFound hMissed hNames
  rw [hCorrect, hWrong, hFound, hMissed, hNames]

/-! ## Sides and locations -/

theorem correct_append_wrong_perm (detected reference : List Occurrence) :
    ((classify detected reference).correct ++ (classify detected reference).wrong).Perm
      detected := by
  have h := splitsByLocation_classify detected reference
  rw [h.correct, h.wrong]
  simp only [decide_not]
  exact List.filter_append_perm _ _

theorem found_append_missed_perm (detected reference : List Occurrence) :
    ((classify detected reference).found ++ (classify detected reference).missed).Perm
      reference := by
  have h := splitsByLocation_classify detected reference
  rw [h.found, h.missed]
  simp only [decide_not]
  exact List.filter_append_perm _ _

theorem mem_stops_filter_iff {os : List Occurrence} {select : Occurrence → Bool}
    {P : UInt64 → Prop} (h : ∀ o, select o = true ↔ P o.stop) {location : UInt64} :
    location ∈ (os.filter select).map Occurrence.stop ↔
      location ∈ os.map Occurrence.stop ∧ P location := by
  constructor
  · intro hLocation
    obtain ⟨o, ho, rfl⟩ := List.mem_map.mp hLocation
    obtain ⟨ho, hSelect⟩ := List.mem_filter.mp ho
    exact ⟨List.mem_map_of_mem ho, (h o).mp hSelect⟩
  · rintro ⟨hLocation, hP⟩
    obtain ⟨o, ho, rfl⟩ := List.mem_map.mp hLocation
    exact List.mem_map_of_mem (List.mem_filter.mpr ⟨ho, (h o).mpr hP⟩)

theorem mem_stops_correct_iff {detected reference : List Occurrence} {location : UInt64} :
    location ∈ (classify detected reference).correct.map Occurrence.stop ↔
      location ∈ detected.map Occurrence.stop ∧ location ∈ reference.map Occurrence.stop := by
  rw [(splitsByLocation_classify detected reference).correct]
  apply mem_stops_filter_iff
  intro o
  rw [decide_eq_true_iff, Occurrence.met_iff]

theorem mem_stops_wrong_iff {detected reference : List Occurrence} {location : UInt64} :
    location ∈ (classify detected reference).wrong.map Occurrence.stop ↔
      location ∈ detected.map Occurrence.stop ∧ location ∉ reference.map Occurrence.stop := by
  rw [(splitsByLocation_classify detected reference).wrong]
  apply mem_stops_filter_iff (P := fun location => location ∉ reference.map Occurrence.stop)
  intro o
  rw [decide_eq_true_iff, Occurrence.met_iff]

/-! ## Lists in another order -/

/-- Two classifications that differ in the order of their lists at most. -/
structure Classification.Reordered (c c' : Classification) : Prop where
  correct : c.correct.Perm c'.correct
  wrong : c.wrong.Perm c'.wrong
  found : c.found.Perm c'.found
  missed : c.missed.Perm c'.missed
  patternsUsed : c.patternsUsed = c'.patternsUsed

theorem filter_met_perm {os os' others others' : List Occurrence} (h : os.Perm os')
    (hOthers : others.Perm others') :
    (os.filter fun o => o.Met others).Perm (os'.filter fun o => o.Met others') ∧
      (os.filter fun o => ¬ o.Met others).Perm (os'.filter fun o => ¬ o.Met others') := by
  have hMet : ∀ o : Occurrence, o.Met others ↔ o.Met others' :=
    Occurrence.met_congr fun _ => (hOthers.map Occurrence.stop).mem_iff
  simp only [hMet]
  exact ⟨h.filter _, h.filter _⟩

theorem classify_reordered {detected detected' reference reference' : List Occurrence}
    (hDetected : detected.Perm detected') (hReference : reference.Perm reference') :
    (classify detected reference).Reordered (classify detected' reference') := by
  have h := splitsByLocation_classify detected reference
  have h' := splitsByLocation_classify detected' reference'
  have hCorrect : (classify detected reference).correct.Perm
      (classify detected' reference').correct := by
    rw [h.correct, h'.correct]
    exact (filter_met_perm hDetected hReference).1
  refine ⟨hCorrect, ?_, ?_, ?_, ?_⟩
  · rw [h.wrong, h'.wrong]
    exact (filter_met_perm hDetected hReference).2
  · rw [h.found, h'.found]
    exact (filter_met_perm hReference hDetected).1
  · rw [h.missed, h'.missed]
    exact (filter_met_perm hReference hDetected).2
  · apply eq_of_ascending h.ascending h'.ascending
    intro name
    rw [h.mem_patternsUsed, h'.mem_patternsUsed]
    simp only [hCorrect.mem_iff]

/-- Classifying through the index and the marks gives what comparing all pairs gives, and nothing
else does. Every mark that a detection sets is one of a reference occurrence. -/
theorem splitsByLocation_iff_eq_classify (detected reference : List Occurrence) :
    (∀ d ∈ detected, ∀ i ∈ (LocationIndex.ofList reference).hits d, i < reference.length) ∧
      ∀ c, SplitsByLocation detected reference c ↔ c = classify detected reference := by
  refine ⟨?_, ?_⟩
  · intro d _ i hi
    exact LocationIndex.lt_length_of_mem_hits hi
  · intro c
    constructor
    · intro h
      exact h.unique (splitsByLocation_classify detected reference)
    · rintro rfl
      exact splitsByLocation_classify detected reference

end PatternAudit
