import Mathlib.Data.List.Induction
import Mathlib.Data.List.Nodup
import PatternAudit.Collision
import PatternAudit.Proofs.Frequency

/-!
# What resolving collisions keeps

Survivors are kept in slots that are found through a table of locations and overwritten when a
preferred occurrence turns up. None of this shows in the result. It is the list of the locations in
the order in which they first occur, with the occurrence that stands least at each of them.

* `Keeps count os out` says this of a list `out`, for any counts of the names. No list but one can
  have it (`Keeps.unique`), and which occurrences are in it does not depend on the order of `os`
  (`Keeps.mem_iff`).
* `Survivors.add_cases` is all that adding one occurrence can do. From it `Keeps` carries over from
  the occurrences met so far to one more (`Survivors.keeps_add`), and so to any list
  (`Survivors.keeps_foldl_add`).
* `keeps_resolveCollisions` is the case of the whole list with its own counts. What else is known of
  the survivors follows from it.
-/

namespace PatternAudit

/-! ## Distinct values in the order of their first occurrence -/

section Distinct

variable {α : Type} [DecidableEq α]

theorem eraseDups_concat_of_mem {l : List α} {a : α} (h : a ∈ l) :
    (l ++ [a]).eraseDups = l.eraseDups := by
  rw [List.eraseDups_append]
  simp [List.removeAll, h]

theorem eraseDups_concat_of_not_mem {l : List α} {a : α} (h : a ∉ l) :
    (l ++ [a]).eraseDups = l.eraseDups ++ [a] := by
  rw [List.eraseDups_append]
  simp [List.removeAll, h, List.eraseDups_cons]

theorem nodup_eraseDups (l : List α) : l.eraseDups.Nodup := by
  induction l using List.reverseRecOn with
  | nil => exact List.nodup_nil
  | append_singleton l a ih =>
    by_cases h : a ∈ l
    · rw [eraseDups_concat_of_mem h]
      exact ih
    · rw [eraseDups_concat_of_not_mem h, ← List.concat_eq_append]
      exact ih.concat (fun hMem => h (List.mem_eraseDups.mp hMem))

theorem eraseDups_eq_self_of_nodup {l : List α} (h : l.Nodup) : l.eraseDups = l := by
  induction l using List.reverseRecOn with
  | nil => rfl
  | append_singleton l a ih =>
    obtain ⟨hl, _, hDisjoint⟩ := List.nodup_append.mp h
    have ha : a ∉ l := fun hMem => hDisjoint a hMem a (by simp) rfl
    rw [eraseDups_concat_of_not_mem ha, ih hl]

end Distinct

/-! ## The least at a location -/

/-- `o` is in the list and stands least among all that end where it does. -/
def LeastAt (count : String → Nat) (os : List Occurrence) (o : Occurrence) : Prop :=
  o ∈ os ∧ ∀ p ∈ os, p.stop = o.stop → standing count o ≤ standing count p

instance (count : String → Nat) (os : List Occurrence) : DecidablePred (LeastAt count os) :=
  fun o => inferInstanceAs (Decidable
    (o ∈ os ∧ ∀ p ∈ os, p.stop = o.stop → standing count o ≤ standing count p))

namespace LeastAt

variable {count : String → Nat} {os : List Occurrence} {o : Occurrence}

theorem eq {a b : Occurrence} (ha : LeastAt count os a) (hb : LeastAt count os b)
    (hStop : a.stop = b.stop) : a = b := by
  have hLe := ha.2 b hb.1 hStop.symm
  have hGe := hb.2 a ha.1 hStop
  exact eq_of_standing_eq (le_antisymm hLe hGe) hStop

theorem concat {k : Occurrence} (h : LeastAt count os k)
    (ho : o.stop = k.stop → standing count k ≤ standing count o) :
    LeastAt count (os ++ [o]) k := by
  refine ⟨List.mem_append_left _ h.1, ?_⟩
  intro p hp hStop
  rcases List.mem_append.mp hp with hp | hp
  · exact h.2 p hp hStop
  · rw [List.mem_singleton.mp hp] at hStop ⊢
    exact ho hStop

theorem concat_self (h : ∀ p ∈ os, p.stop = o.stop → standing count o ≤ standing count p) :
    LeastAt count (os ++ [o]) o := by
  refine ⟨by simp, ?_⟩
  intro p hp hStop
  rcases List.mem_append.mp hp with hp | hp
  · exact h p hp hStop
  · rw [List.mem_singleton.mp hp]

end LeastAt

/-! ## The lists that keep the least -/

/-- `out` lists the locations of `os` in the order of their first occurrence, each with the
occurrence of `os` that stands least there. -/
structure Keeps (count : String → Nat) (os out : List Occurrence) : Prop where
  locations : out.map Occurrence.stop = (os.map Occurrence.stop).eraseDups
  least : ∀ o ∈ out, LeastAt count os o

-- Survivors that are given can be checked, though finding them goes through tables of hashes.
instance (count : String → Nat) (os out : List Occurrence) : Decidable (Keeps count os out) :=
  decidable_of_iff (out.map Occurrence.stop = (os.map Occurrence.stop).eraseDups ∧
    ∀ o ∈ out, LeastAt count os o) ⟨fun h => ⟨h.1, h.2⟩, fun h => ⟨h.locations, h.least⟩⟩

namespace Keeps

variable {count : String → Nat} {os out : List Occurrence}

theorem nodup_stops (h : Keeps count os out) : (out.map Occurrence.stop).Nodup := by
  rw [h.locations]
  exact nodup_eraseDups _

theorem nodup (h : Keeps count os out) : out.Nodup :=
  h.nodup_stops.of_map _

theorem mem_stops_iff (h : Keeps count os out) (location : UInt64) :
    location ∈ out.map Occurrence.stop ↔ location ∈ os.map Occurrence.stop := by
  rw [h.locations, List.mem_eraseDups]

/-- Two such lists have the same locations and agree at each of them. -/
theorem unique {out' : List Occurrence} (h : Keeps count os out) (h' : Keeps count os out') :
    out = out' := by
  have hStops : out.map Occurrence.stop = out'.map Occurrence.stop :=
    h.locations.trans h'.locations.symm
  have hLength : out.length = out'.length := by
    simpa using congrArg List.length hStops
  apply List.ext_getElem hLength
  intro i hi hi'
  have hStop : out[i].stop = out'[i].stop := by
    have := List.getElem_of_eq hStops (by simpa using hi)
    simpa using this
  exact (h.least _ (List.getElem_mem hi)).eq (h'.least _ (List.getElem_mem hi')) hStop

/-- Which occurrences are kept can be told without the order of the list. -/
theorem mem_iff (h : Keeps count os out) (o : Occurrence) : o ∈ out ↔ LeastAt count os o := by
  constructor
  · exact h.least o
  · intro ho
    have hStops := (h.mem_stops_iff o.stop).mpr (List.mem_map_of_mem ho.1)
    obtain ⟨k, hk, hStop⟩ := List.mem_map.mp hStops
    rw [← (h.least k hk).eq ho hStop]
    exact hk

/-! One more occurrence changes such a list in one of three ways. -/

theorem append (h : Keeps count os out) {o : Occurrence}
    (hNew : o.stop ∉ out.map Occurrence.stop) : Keeps count (os ++ [o]) (out ++ [o]) := by
  have hFresh : o.stop ∉ os.map Occurrence.stop := by
    rwa [h.mem_stops_iff] at hNew
  refine ⟨?_, ?_⟩
  · rw [List.map_append, List.map_append, h.locations, List.map_singleton,
      eraseDups_concat_of_not_mem hFresh]
  · intro k hk
    rcases List.mem_append.mp hk with hk | hk
    · apply (h.least k hk).concat
      intro hStop
      exact absurd (List.mem_map.mpr ⟨k, hk, hStop.symm⟩) hNew
    · rw [List.mem_singleton.mp hk]
      apply LeastAt.concat_self
      intro p hp hStop
      exact absurd (List.mem_map.mpr ⟨p, hp, hStop⟩) hFresh

theorem locations_of_known (h : Keeps count os out) {o : Occurrence}
    (hKnown : o.stop ∈ out.map Occurrence.stop) :
    out.map Occurrence.stop = ((os ++ [o]).map Occurrence.stop).eraseDups := by
  rw [List.map_append, List.map_singleton,
    eraseDups_concat_of_mem ((h.mem_stops_iff _).mp hKnown)]
  exact h.locations

theorem stay (h : Keeps count os out) {o old : Occurrence} (hOld : old ∈ out)
    (hStop : old.stop = o.stop) (hLe : standing count old ≤ standing count o) :
    Keeps count (os ++ [o]) out := by
  refine ⟨h.locations_of_known (List.mem_map.mpr ⟨old, hOld, hStop⟩), ?_⟩
  intro k hk
  apply (h.least k hk).concat
  intro hSame
  rw [(h.least k hk).eq (h.least old hOld) (hSame.symm.trans hStop.symm)]
  exact hLe

theorem replace {front back : List Occurrence} {o old : Occurrence}
    (h : Keeps count os (front ++ old :: back)) (hStop : old.stop = o.stop)
    (hLt : standing count o < standing count old) :
    Keeps count (os ++ [o]) (front ++ o :: back) := by
  have hOld : old ∈ front ++ old :: back := by simp
  have hNodup := (List.perm_middle.map Occurrence.stop).nodup_iff.mp h.nodup_stops
  refine ⟨?_, ?_⟩
  · rw [← h.locations_of_known (List.mem_map.mpr ⟨old, hOld, hStop⟩)]
    simp [hStop]
  · intro k hk
    rcases List.mem_cons.mp (List.perm_middle.mem_iff.mp hk) with rfl | hk
    · apply LeastAt.concat_self
      intro p hp hSame
      exact hLt.le.trans ((h.least old hOld).2 p hp (hSame.trans hStop.symm))
    · have hKept : k ∈ front ++ old :: back :=
        List.perm_middle.mem_iff.mpr (List.mem_cons_of_mem _ hk)
      apply (h.least k hKept).concat
      -- Only `old` had the location of `o`, and `k` stands beside it.
      intro hSame
      exact absurd (List.mem_map.mpr ⟨k, hk, hSame.symm.trans hStop.symm⟩)
        (List.nodup_cons.mp hNodup).1

end Keeps

/-! ## Adding one occurrence -/

namespace Survivors

/-- A new location is appended. At a known one the survivor gives way to an occurrence that stands
lower, in its place, and stays otherwise. -/
theorem add_cases (f : Frequencies) (s : Survivors) (o : Occurrence) :
    (o.stop ∉ s.kept.toList.map Occurrence.stop ∧
      (s.add f o).kept.toList = s.kept.toList ++ [o]) ∨
    (∃ front old back, s.kept.toList = front ++ old :: back ∧ old.stop = o.stop ∧
      standing f.count o < standing f.count old ∧
      (s.add f o).kept.toList = front ++ o :: back) ∨
    (∃ old ∈ s.kept.toList, old.stop = o.stop ∧ standing f.count old ≤ standing f.count o ∧
      (s.add f o).kept.toList = s.kept.toList) := by
  unfold add
  split
  · rename_i hNone
    refine Or.inl ⟨?_, by simp⟩
    rw [s.slot_eq, Array.findIdx?_eq_none_iff] at hNone
    intro hMem
    obtain ⟨p, hp, hStop⟩ := List.mem_map.mp hMem
    have hNe := hNone p (Array.mem_toList_iff.mp hp)
    simp [hStop] at hNe
  · rename_i slot hSome
    have hBound := s.slot_lt hSome
    have hStop := s.stop_slot hSome hBound
    have hBoundList : slot < s.kept.toList.length := by simpa using hBound
    dsimp only
    split
    · rename_i hLt
      obtain ⟨front, back, hKept, -, hSet⟩ :
          ∃ front back, s.kept.toList = front ++ s.kept.toList[slot] :: back ∧
            front.length = slot ∧ s.kept.toList.set slot o = front ++ o :: back :=
        List.exists_of_set hBoundList
      refine Or.inr (Or.inl ⟨front, s.kept[slot], back, ?_, hStop, ?_, ?_⟩)
      · simpa using hKept
      · exact (f.preference_eq_lt_iff _ _).mp hLt
      · simpa using hSet
    · rename_i hNotLt
      refine Or.inr (Or.inr ⟨s.kept[slot], by simp, hStop, ?_, rfl⟩)
      rw [f.preference_eq_lt_iff] at hNotLt
      exact not_lt.mp hNotLt

theorem keeps_add {f : Frequencies} {s : Survivors} {os : List Occurrence}
    (h : Keeps f.count os s.kept.toList) (o : Occurrence) :
    Keeps f.count (os ++ [o]) (s.add f o).kept.toList := by
  rcases s.add_cases f o with ⟨hNew, hAdd⟩ | ⟨front, old, back, hKept, hStop, hLt, hAdd⟩ |
    ⟨old, hOld, hStop, hLe, hAdd⟩
  · rw [hAdd]
    exact h.append hNew
  · rw [hKept] at h
    rw [hAdd]
    exact h.replace hStop hLt
  · rw [hAdd]
    exact h.stay hOld hStop hLe

/-- The survivors of any list, by induction on the occurrences met so far. -/
theorem keeps_foldl_add (f : Frequencies) (os : List Occurrence) :
    Keeps f.count os (os.foldl (add f) empty).kept.toList := by
  induction os using List.reverseRecOn with
  | nil => exact ⟨rfl, by simp [empty]⟩
  | append_singleton os o ih =>
    rw [List.foldl_append]
    exact keeps_add ih o

end Survivors

/-! ## Resolving the collisions of a list -/

theorem keeps_resolveCollisions (os : List Occurrence) :
    Keeps (uses os) os (resolveCollisions os) := by
  have h := Survivors.keeps_foldl_add (Frequencies.ofList os) os
  rw [Frequencies.count_ofList] at h
  exact h

theorem resolveCollisions_subset (os : List Occurrence) : resolveCollisions os ⊆ os := by
  intro o ho
  exact ((keeps_resolveCollisions os).least o ho).1

theorem resolveCollisions_perm {os ps : List Occurrence} (h : os.Perm ps) :
    (resolveCollisions os).Perm (resolveCollisions ps) := by
  have hos := keeps_resolveCollisions os
  have hps := keeps_resolveCollisions ps
  rw [List.perm_ext_iff_of_nodup hos.nodup hps.nodup]
  intro o
  rw [hos.mem_iff, hps.mem_iff, uses_eq_of_perm h]
  simp only [LeastAt, h.mem_iff]

theorem resolveCollisions_eq_self {os : List Occurrence} (h : (os.map Occurrence.stop).Nodup) :
    resolveCollisions os = os := by
  apply (keeps_resolveCollisions os).unique
  refine ⟨(eraseDups_eq_self_of_nodup h).symm, ?_⟩
  intro o ho
  refine ⟨ho, ?_⟩
  intro p hp hStop
  rw [List.inj_on_of_nodup_map h hp ho hStop]

/-- The result of resolving collisions is the one list that has, for each location in the order of
first occurrence, the occurrence that stands least there by the counts of the whole list. -/
theorem keeps_iff_eq_resolveCollisions (os out : List Occurrence) :
    Keeps (uses os) os out ↔ out = resolveCollisions os := by
  constructor
  · intro h
    exact h.unique (keeps_resolveCollisions os)
  · rintro rfl
    exact keeps_resolveCollisions os

end PatternAudit
