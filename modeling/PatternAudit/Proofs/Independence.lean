import PatternAudit.Proofs.Collision

/-!
# Groups that have nothing in common

The survivor at a location is chosen by the counts of the whole list, and all survivors share one
numbering of slots. Still, occurrences that share neither a location nor a name with the others are
resolved as if the others were not there, however the two groups are mixed.

Two facts carry this. Within the list, whether an occurrence belongs to the group can be told from
its location (`Apart.select_iff`), so that leaving out the others leaves out whole locations and
keeps the order of the rest. And the others add nothing to the counts of the names in the group
(`Apart.uses_filter`), so that the same occurrence stands least at each location.
-/

namespace PatternAudit

theorem filter_eraseDups {α : Type} [DecidableEq α] (keep : α → Bool) (l : List α) :
    l.eraseDups.filter keep = (l.filter keep).eraseDups := by
  induction l using List.reverseRecOn with
  | nil => rfl
  | append_singleton l a ih =>
    by_cases hKeep : keep a
    · have hFilter (m : List α) : (m ++ [a]).filter keep = m.filter keep ++ [a] := by
        simp [hKeep]
      by_cases hMem : a ∈ l
      · have hMem' : a ∈ l.filter keep := List.mem_filter.mpr ⟨hMem, hKeep⟩
        rw [eraseDups_concat_of_mem hMem, hFilter, eraseDups_concat_of_mem hMem', ih]
      · have hMem' : a ∉ l.filter keep := fun h => hMem (List.mem_filter.mp h).1
        rw [eraseDups_concat_of_not_mem hMem, hFilter, hFilter,
          eraseDups_concat_of_not_mem hMem', ih]
    · have hFilter (m : List α) : (m ++ [a]).filter keep = m.filter keep := by
        simp [hKeep]
      rw [hFilter, ← ih]
      by_cases hMem : a ∈ l
      · rw [eraseDups_concat_of_mem hMem]
      · rw [eraseDups_concat_of_not_mem hMem, hFilter]

/-- What is selected from the list shares no location and no name with what is left. -/
def Apart (select : Occurrence → Bool) (os : List Occurrence) : Prop :=
  ∀ a ∈ os.filter select, ∀ b ∈ os.filter fun o => !select o,
    a.stop ≠ b.stop ∧ a.pattern ≠ b.pattern

instance (select : Occurrence → Bool) (os : List Occurrence) : Decidable (Apart select os) :=
  inferInstanceAs (Decidable (∀ a ∈ os.filter select, ∀ b ∈ os.filter fun o => !select o,
    a.stop ≠ b.stop ∧ a.pattern ≠ b.pattern))

namespace Apart

variable {select : Occurrence → Bool} {os : List Occurrence}

theorem symm (h : Apart select os) : Apart (fun o => !select o) os := by
  intro a ha b hb
  simp only [Bool.not_not] at hb
  obtain ⟨hStop, hPattern⟩ := h b hb a ha
  exact ⟨hStop.symm, hPattern.symm⟩

theorem select_iff (h : Apart select os) {o : Occurrence} (ho : o ∈ os) :
    select o ↔ o.stop ∈ (os.filter select).map Occurrence.stop := by
  constructor
  · intro hSelect
    exact List.mem_map_of_mem (List.mem_filter.mpr ⟨ho, hSelect⟩)
  · intro hStop
    obtain ⟨a, ha, hEq⟩ := List.mem_map.mp hStop
    by_contra hLeft
    have hOthers : o ∈ os.filter fun o => !select o :=
      List.mem_filter.mpr ⟨ho, by simpa using hLeft⟩
    exact (h a ha o hOthers).1 hEq

/-- Selecting occurrences of the list is selecting locations. -/
theorem map_stop_filter (h : Apart select os) {l : List Occurrence} (hl : l ⊆ os) :
    (l.filter select).map Occurrence.stop =
      (l.map Occurrence.stop).filter fun location =>
        decide (location ∈ (os.filter select).map Occurrence.stop) := by
  rw [List.filter_map]
  congr 1
  apply List.filter_congr
  intro o ho
  rw [Bool.eq_iff_iff, Function.comp_apply, decide_eq_true_iff]
  exact h.select_iff (hl ho)

theorem uses_filter (h : Apart select os) {o : Occurrence} (ho : o ∈ os.filter select) :
    uses (os.filter select) o.pattern = uses os o.pattern := by
  have hOthers : uses (os.filter fun o => !select o) o.pattern = 0 := by
    rw [uses, List.count_eq_zero]
    intro hMem
    obtain ⟨b, hb, hPattern⟩ := List.mem_map.mp hMem
    exact (h o ho b hb).2 hPattern.symm
  have hParts := uses_eq_of_perm (List.filter_append_perm select os)
  calc uses (os.filter select) o.pattern
      = uses (os.filter select) o.pattern + uses (os.filter fun o => !select o) o.pattern := by
        rw [hOthers, Nat.add_zero]
    _ = uses (os.filter select ++ os.filter fun o => !select o) o.pattern := by
        simp only [uses, List.map_append, List.count_append]
    _ = uses os o.pattern := by rw [hParts]

theorem standing_filter (h : Apart select os) {o : Occurrence} (ho : o ∈ os.filter select) :
    standing (uses (os.filter select)) o = standing (uses os) o := by
  rw [standing, standing, h.uses_filter ho]

/-- The selected survivors are what resolving the selected occurrences alone has to keep. -/
theorem keeps_filter (h : Apart select os) :
    Keeps (uses (os.filter select)) (os.filter select) ((resolveCollisions os).filter select) := by
  have hKeeps := keeps_resolveCollisions os
  refine ⟨?_, ?_⟩
  · rw [h.map_stop_filter (resolveCollisions_subset os), hKeeps.locations, filter_eraseDups,
      ← h.map_stop_filter (List.Subset.refl os)]
  · intro o ho
    obtain ⟨hKept, hSelect⟩ := List.mem_filter.mp ho
    obtain ⟨hMem, hLeast⟩ := hKeeps.least o hKept
    have hSelected : o ∈ os.filter select := List.mem_filter.mpr ⟨hMem, hSelect⟩
    refine ⟨hSelected, ?_⟩
    intro p hp hStop
    rw [h.standing_filter hSelected, h.standing_filter hp]
    exact hLeast p (List.mem_filter.mp hp).1 hStop

theorem filter_resolveCollisions (h : Apart select os) :
    (resolveCollisions os).filter select = resolveCollisions (os.filter select) :=
  h.keeps_filter.unique (keeps_resolveCollisions _)

end Apart

/-- If a list can be split so that no location and no name is on both sides, each side is resolved
as if it stood alone, in the order of the whole list. The survivors are those that stand least at
their locations by the counts of their own side. -/
theorem resolveCollisions_apart {select : Occurrence → Bool} {os : List Occurrence}
    (h : Apart select os) :
    (resolveCollisions os).filter select = resolveCollisions (os.filter select) ∧
      ((resolveCollisions os).filter fun o => !select o) =
        resolveCollisions (os.filter fun o => !select o) ∧
      ∀ o, o ∈ resolveCollisions os ↔
        LeastAt (uses (os.filter select)) (os.filter select) o ∨
          LeastAt (uses (os.filter fun o => !select o)) (os.filter fun o => !select o) o := by
  refine ⟨h.filter_resolveCollisions, h.symm.filter_resolveCollisions, ?_⟩
  intro o
  rw [← h.keeps_filter.mem_iff, ← h.symm.keeps_filter.mem_iff, ← List.mem_append,
    (List.filter_append_perm select _).mem_iff]

/-- Copying functions among others. In both groups a rare pattern collides with a common one. -/
def mixedGroups : List Occurrence :=
  [⟨"memcpy", 0, 32⟩, ⟨"free", 0, 64⟩, ⟨"strcpy", 4, 32⟩, ⟨"exit", 4, 64⟩, ⟨"free", 8, 72⟩,
    ⟨"memcpy", 8, 40⟩]

def isCopying (o : Occurrence) : Bool :=
  o.pattern ∈ ["memcpy", "strcpy"]

theorem resolveCollisions_mixedGroups :
    Apart isCopying mixedGroups ∧
      (resolveCollisions mixedGroups).filter isCopying =
        [⟨"strcpy", 4, 32⟩, ⟨"memcpy", 8, 40⟩] ∧
      ((resolveCollisions mixedGroups).filter fun o => !isCopying o) =
        [⟨"exit", 4, 64⟩, ⟨"free", 8, 72⟩] := by
  have hApart : Apart isCopying mixedGroups := by decide +kernel
  obtain ⟨hCopying, hOthers, _⟩ := resolveCollisions_apart hApart
  refine ⟨hApart, hCopying.trans ?_, hOthers.trans ?_⟩
  · exact (keeps_resolveCollisions _).unique (by decide +kernel)
  · exact (keeps_resolveCollisions _).unique (by decide +kernel)

end PatternAudit
