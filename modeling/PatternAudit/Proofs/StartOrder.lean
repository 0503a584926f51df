import PatternAudit.Proofs.Classification

/-!
# Occurrences in the order of their starts

Reports list occurrences by their start address. Those with one start keep the order in which they
came. This leaves no choice: the order is fixed by what stands at each start (`Sorts.unique`), so
the occurrences with any further property are found in it as if they had been sorted alone
(`sortByStart_filter`).

Classifying selects occurrences by their locations, which sorting does not change. Whether the lists
are sorted before they are classified or afterwards therefore makes no difference.
-/

namespace PatternAudit

open Occurrence (Met sortByStart)

/-- The occurrences that start at an address, in the order of the list. -/
def startingAt (start : UInt64) (os : List Occurrence) : List Occurrence :=
  os.filter fun o => o.start = start

theorem mem_startingAt {start : UInt64} {os : List Occurrence} {o : Occurrence} :
    o ∈ startingAt start os ↔ o ∈ os ∧ o.start = start := by
  rw [startingAt, List.mem_filter, decide_eq_true_iff]

theorem startingAt_cons_self (a : Occurrence) (os : List Occurrence) :
    startingAt a.start (a :: os) = a :: startingAt a.start os :=
  List.filter_cons_of_pos (decide_eq_true rfl)

theorem startingAt_cons_of_ne {start : UInt64} {a : Occurrence} (h : a.start ≠ start)
    (os : List Occurrence) : startingAt start (a :: os) = startingAt start os :=
  List.filter_cons_of_neg (by simpa using h)

/-- `out` has the occurrences of `os`, ascending by their starts, those with equal starts in the
order of `os`. -/
structure Sorts (os out : List Occurrence) : Prop where
  perm : out.Perm os
  ascending : out.Pairwise fun a b => a.start ≤ b.start
  stable : ∀ start, startingAt start out = startingAt start os

/-! ## The order is fixed -/

section

variable {a b : Occurrence} {l m : List Occurrence}

theorem mem_of_startingAt (h : ∀ start, startingAt start l = startingAt start m) (ha : a ∈ l) :
    a ∈ m := by
  have hStart : a ∈ startingAt a.start l := mem_startingAt.mpr ⟨ha, rfl⟩
  rw [h] at hStart
  exact (mem_startingAt.mp hStart).1

theorem start_head_le (h : (a :: l).Pairwise fun a b => a.start ≤ b.start) (hb : b ∈ a :: l) :
    a.start ≤ b.start := by
  rcases List.mem_cons.mp hb with rfl | hb
  · exact UInt64.le_refl _
  · exact List.rel_of_pairwise_cons h hb

/-- Both lists begin with the first occurrence at the least start, by induction on what is left. -/
theorem eq_of_startingAt (hl : l.Pairwise fun a b => a.start ≤ b.start)
    (hm : m.Pairwise fun a b => a.start ≤ b.start)
    (h : ∀ start, startingAt start l = startingAt start m) : l = m := by
  induction l generalizing m with
  | nil =>
    cases m with
    | nil => rfl
    | cons b m =>
      have hMem := mem_of_startingAt (fun start => (h start).symm) List.mem_cons_self
      exact absurd hMem List.not_mem_nil
  | cons a l ih =>
    cases m with
    | nil => exact absurd (mem_of_startingAt h List.mem_cons_self) List.not_mem_nil
    | cons b m =>
      have hLe : a.start ≤ b.start :=
        start_head_le hl (mem_of_startingAt (fun start => (h start).symm) List.mem_cons_self)
      have hGe : b.start ≤ a.start := start_head_le hm (mem_of_startingAt h List.mem_cons_self)
      have hStart : a.start = b.start := UInt64.le_antisymm hLe hGe
      have hHead := h a.start
      rw [startingAt_cons_self, hStart, startingAt_cons_self, List.cons.injEq] at hHead
      obtain ⟨rfl, hSame⟩ := hHead
      have hTail : l = m := by
        apply ih hl.tail hm.tail
        intro start
        by_cases hEq : a.start = start
        · subst hEq
          exact hSame
        · have hRest := h start
          rwa [startingAt_cons_of_ne hEq, startingAt_cons_of_ne hEq] at hRest
      rw [hTail]

end

theorem Sorts.unique {os out out' : List Occurrence} (h : Sorts os out) (h' : Sorts os out') :
    out = out' := by
  apply eq_of_startingAt h.ascending h'.ascending
  intro start
  rw [h.stable, h'.stable]

/-! ## Sorting -/

theorem pairwise_startingAt (start : UInt64) (os : List Occurrence) :
    (startingAt start os).Pairwise fun a b => decide (a.start ≤ b.start) = true := by
  apply List.pairwise_of_forall_mem_list
  intro a ha b hb
  rw [(mem_startingAt.mp ha).2, (mem_startingAt.mp hb).2]
  exact decide_eq_true (UInt64.le_refl _)

theorem sorts_sortByStart (os : List Occurrence) : Sorts os (sortByStart os) := by
  have hTrans (a b c : Occurrence) (hab : decide (a.start ≤ b.start) = true)
      (hbc : decide (b.start ≤ c.start) = true) : decide (a.start ≤ c.start) = true := by
    rw [decide_eq_true_iff] at hab hbc ⊢
    exact UInt64.le_trans hab hbc
  have hTotal (a b : Occurrence) :
      (decide (a.start ≤ b.start) || decide (b.start ≤ a.start)) = true := by
    simpa using UInt64.le_total a.start b.start
  have hPerm : (sortByStart os).Perm os := List.mergeSort_perm _ _
  refine ⟨hPerm, ?_, ?_⟩
  · exact (List.pairwise_mergeSort hTrans hTotal os).imp of_decide_eq_true
  · intro start
    -- The group is in order already, so it is part of the sorted list, and no part is longer.
    have hGroup : (startingAt start os).Sublist (sortByStart os) :=
      List.sublist_mergeSort hTrans hTotal (pairwise_startingAt start os)
        List.filter_sublist
    have hPart : (startingAt start os).Sublist (startingAt start (sortByStart os)) := by
      simpa [startingAt] using hGroup.filter fun o => o.start = start
    exact (hPart.eq_of_length (hPerm.filter _).length_eq.symm).symm

theorem Sorts.filter {os out : List Occurrence} (h : Sorts os out) (select : Occurrence → Bool) :
    Sorts (os.filter select) (out.filter select) := by
  refine ⟨h.perm.filter select, h.ascending.filter select, ?_⟩
  intro start
  have hComm (l : List Occurrence) :
      startingAt start (l.filter select) = (startingAt start l).filter select :=
    List.filter_comm _ _ l
  rw [hComm, hComm, h.stable]

theorem sortByStart_filter (os : List Occurrence) (select : Occurrence → Bool) :
    sortByStart (os.filter select) = (sortByStart os).filter select :=
  (sorts_sortByStart _).unique ((sorts_sortByStart os).filter select)

/-! ## Classifying what is sorted -/

/-- The same classification with each of its lists sorted. -/
def Classification.sortByStart (c : Classification) : Classification where
  correct := Occurrence.sortByStart c.correct
  wrong := Occurrence.sortByStart c.wrong
  found := Occurrence.sortByStart c.found
  missed := Occurrence.sortByStart c.missed
  patternsUsed := c.patternsUsed

theorem met_sortByStart (others : List Occurrence) (o : Occurrence) :
    o.Met (sortByStart others) ↔ o.Met others := by
  apply Occurrence.met_congr
  intro location
  exact ((sorts_sortByStart others).perm.map Occurrence.stop).mem_iff

theorem splitsByLocation_sortByStart {detected reference : List Occurrence} {c : Classification}
    (h : SplitsByLocation detected reference c) :
    SplitsByLocation (sortByStart detected) (sortByStart reference) c.sortByStart := by
  refine ⟨?_, ?_, ?_, ?_, ?_, h.ascending⟩
  · simp only [Classification.sortByStart, h.correct, met_sortByStart, sortByStart_filter]
  · simp only [Classification.sortByStart, h.wrong, met_sortByStart, sortByStart_filter]
  · simp only [Classification.sortByStart, h.found, met_sortByStart, sortByStart_filter]
  · simp only [Classification.sortByStart, h.missed, met_sortByStart, sortByStart_filter]
  · intro name
    simp only [Classification.sortByStart, h.mem_patternsUsed,
      (sorts_sortByStart c.correct).perm.mem_iff]

/-- Sorting by start gives the occurrences of the list in ascending order, those with equal starts
as they stood, and no other order is like this. Classifying sorted lists gives the sorted lists of
the classification, with the same names; these are what comparing all pairs of the sorted lists
gives. -/
theorem classify_sortByStart :
    (∀ os out : List Occurrence, Sorts os out ↔ out = sortByStart os) ∧
      ∀ detected reference : List Occurrence,
        classify (sortByStart detected) (sortByStart reference) =
            (classify detected reference).sortByStart ∧
          SplitsByLocation (sortByStart detected) (sortByStart reference)
            (classify detected reference).sortByStart := by
  refine ⟨?_, ?_⟩
  · intro os out
    constructor
    · intro h
      exact h.unique (sorts_sortByStart os)
    · rintro rfl
      exact sorts_sortByStart os
  · intro detected reference
    have hSplits :=
      splitsByLocation_sortByStart (splitsByLocation_classify detected reference)
    exact ⟨(splitsByLocation_classify _ _).unique hSplits, hSplits⟩

end PatternAudit
