import Mathlib.Algebra.BigOperators.Group.List.Lemmas
import Mathlib.Algebra.GroupWithZero.Nat
import Mathlib.Data.List.Sort
import PatternAudit.Proofs.Frequency

/-!
# The ranking of the patterns

The ranking is made from the entries of the table of counts, which come in no particular order. It
does not depend on that order. Entries are compared by count and name, so no two of them are ranked
alike, and there is only one way to put them in order (`Ranks.unique`).

* `Frequencies.mem_toList_ofList_iff`: the entries are the names that occur, with their counts. A
  name is entered with the count `1` and never loses any, so that no entry has the count `0`.
* `Ranks os out` says of a list what the ranking of `os` has to be, without the table. What else is
  known of the ranking follows: each name stands once, and the counts add up to the number of
  occurrences.
* `Frequencies.ranks_mergeSort`: sorting the entries gives this, in whatever order they come.
-/

namespace PatternAudit

/-- The more frequent pattern is ranked first, and of two that are equally frequent the one whose
name has the lesser bytes. -/
def Outranks (a b : String × Nat) : Prop :=
  b.2 < a.2 ∨ (a.2 = b.2 ∧ Utf8.bytes a.1 < Utf8.bytes b.1)

/-! ## A strict order of the entries -/

namespace Outranks

theorem irrefl (a : String × Nat) : ¬ Outranks a a := by
  rintro (h | ⟨_, h⟩)
  · exact lt_irrefl _ h
  · exact lt_irrefl _ h

theorem trans {a b c : String × Nat} (hab : Outranks a b) (hbc : Outranks b c) :
    Outranks a c := by
  rcases hab with hab | ⟨hEq, hab⟩
  · rcases hbc with hbc | ⟨hEq', _⟩
    · exact .inl (hbc.trans hab)
    · exact .inl (hEq' ▸ hab)
  · rcases hbc with hbc | ⟨hEq', hbc⟩
    · exact .inl (hEq ▸ hbc)
    · exact .inr ⟨hEq.trans hEq', hab.trans hbc⟩

theorem total (a b : String × Nat) : Outranks a b ∨ a = b ∨ Outranks b a := by
  rcases lt_trichotomy a.2 b.2 with hLt | hEq | hGt
  · exact .inr (.inr (.inl hLt))
  · rcases lt_trichotomy (Utf8.bytes a.1) (Utf8.bytes b.1) with hLt | hSame | hGt
    · exact .inl (.inr ⟨hEq, hLt⟩)
    · exact .inr (.inl (Prod.ext (Utf8.bytes_injective hSame) hEq))
    · exact .inr (.inr (.inr ⟨hEq.symm, hGt⟩))
  · exact .inl (.inl hGt)

instance : Std.Irrefl Outranks := ⟨irrefl⟩

instance : Std.Antisymm Outranks := ⟨fun a _ h h' => absurd (h.trans h') (irrefl a)⟩

end Outranks

/-- The comparison that sorting uses is the order with equality. -/
theorem Frequencies.rankedBefore_iff (a b : String × Nat) :
    rankedBefore a b = true ↔ Outranks a b ∨ a = b := by
  have hName : (compare a.1 b.1).isLE = true ↔ a.1 < b.1 ∨ a.1 = b.1 := by
    rw [Ordering.isLE_iff_eq_lt_or_eq_eq, compare_lt_iff_lt, Std.compare_eq_iff_eq]
  unfold rankedBefore Outranks
  simp only [Ordering.isLE_then_iff_or, compare_lt_iff_lt, Std.compare_eq_iff_eq, hName,
    Utf8.bytes_lt_iff, Prod.ext_iff]
  -- Both sides compare counts before names; an equation of entries has them the other way round.
  rw [eq_comm (a := b.2)]
  tauto

/-! ## The entries of the table -/

namespace Frequencies

/-- The count that the table has for a name, if it has one. -/
def recorded? (f : Frequencies) (name : String) : Option Nat :=
  f.counts[name]?

theorem count_eq_getD_recorded? (f : Frequencies) (name : String) :
    f.count name = (f.recorded? name).getD 0 :=
  Std.HashMap.getD_eq_getD_getElem?

theorem recorded?_add_ne_zero {f : Frequencies} (h : ∀ name, f.recorded? name ≠ some 0)
    (pattern name : String) : (f.add pattern).recorded? name ≠ some 0 := by
  unfold recorded? add
  rw [Std.HashMap.getElem?_insert]
  split_ifs
  · simp
  · exact h name

theorem recorded?_ofList_ne_zero (os : List Occurrence) (name : String) :
    (ofList os).recorded? name ≠ some 0 := by
  suffices h : ∀ f : Frequencies, (∀ name, f.recorded? name ≠ some 0) →
      (os.foldl (fun f o => f.add o.pattern) f).recorded? name ≠ some 0 by
    apply h
    intro name
    simp [recorded?, empty]
  induction os with
  | nil => exact fun f hf => hf name
  | cons o os ih => exact fun f hf => ih _ (recorded?_add_ne_zero hf o.pattern)

theorem mem_toList_ofList_iff (os : List Occurrence) (entry : String × Nat) :
    entry ∈ (ofList os).counts.toList ↔ entry.2 = uses os entry.1 ∧ 0 < entry.2 := by
  obtain ⟨name, count⟩ := entry
  have hCount := count_eq_getD_recorded? (ofList os) name
  rw [count_ofList] at hCount
  have hNonzero := recorded?_ofList_ne_zero os name
  rw [Std.HashMap.mem_toList_iff_getElem?_eq_some]
  change (ofList os).recorded? name = some count ↔ count = uses os name ∧ 0 < count
  rw [hCount]
  cases hEntry : (ofList os).recorded? name with
  | none => simp
  | some n =>
    have hPos : n ≠ 0 := fun h => hNonzero (h ▸ hEntry)
    simp only [Option.some.injEq, Option.getD_some]
    omega

theorem nodup_names_toList (f : Frequencies) : (f.counts.toList.map Prod.fst).Nodup := by
  rw [List.Nodup, List.pairwise_map]
  apply Std.HashMap.distinct_keys_toList.imp
  intro a b h
  simpa using h

end Frequencies

/-! ## What a ranking is -/

/-- `out` has every name that occurs in `os` with the number of its occurrences, in strict order. -/
structure Ranks (os : List Occurrence) (out : List (String × Nat)) : Prop where
  mem_names_iff : ∀ name, name ∈ out.map Prod.fst ↔ ∃ o ∈ os, o.pattern = name
  count_eq : ∀ entry ∈ out, entry.2 = uses os entry.1
  strict : out.Pairwise Outranks

theorem uses_pos_iff {os : List Occurrence} {name : String} :
    0 < uses os name ↔ ∃ o ∈ os, o.pattern = name := by
  rw [uses, List.count_pos_iff, List.mem_map]

namespace Ranks

variable {os : List Occurrence} {out : List (String × Nat)}

theorem mem_iff (h : Ranks os out) (entry : String × Nat) :
    entry ∈ out ↔ entry.2 = uses os entry.1 ∧ 0 < entry.2 := by
  constructor
  · intro hEntry
    have hCount := h.count_eq entry hEntry
    have hName := (h.mem_names_iff entry.1).mp (List.mem_map_of_mem hEntry)
    exact ⟨hCount, hCount ▸ uses_pos_iff.mpr hName⟩
  · rintro ⟨hCount, hPos⟩
    have hName := (h.mem_names_iff entry.1).mpr (uses_pos_iff.mp (hCount ▸ hPos))
    obtain ⟨found, hFound, hEq⟩ := List.mem_map.mp hName
    have hSame : found = entry := Prod.ext hEq (by rw [h.count_eq found hFound, hEq, hCount])
    exact hSame ▸ hFound

theorem unique {out' : List (String × Nat)} (h : Ranks os out) (h' : Ranks os out') :
    out = out' := by
  apply h.strict.eq_of_mem_iff h'.strict
  intro entry
  rw [h.mem_iff, h'.mem_iff]

theorem of_perm {os' : List Occurrence} (h : Ranks os out) (hPerm : os.Perm os') :
    Ranks os' out := by
  refine ⟨?_, ?_, h.strict⟩
  · intro name
    simp only [h.mem_names_iff, hPerm.mem_iff]
  · rw [← uses_eq_of_perm hPerm]
    exact h.count_eq

theorem nodup_names (h : Ranks os out) : (out.map Prod.fst).Nodup := by
  have hEntries : out.Nodup := h.strict.nodup
  apply hEntries.map_on
  intro a ha b hb hName
  exact Prod.ext hName (by rw [h.count_eq a ha, h.count_eq b hb, hName])

/-- Every occurrence is counted under one name. -/
theorem sum_counts (h : Ranks os out) : (out.map Prod.snd).sum = os.length := by
  have hCounts : out.map Prod.snd = (out.map Prod.fst).map (uses os) := by
    rw [List.map_map]
    exact List.map_congr_left h.count_eq
  have hNames : (out.map Prod.fst).Perm (os.map Occurrence.pattern).dedup := by
    rw [List.perm_ext_iff_of_nodup h.nodup_names (List.nodup_dedup _)]
    intro name
    rw [h.mem_names_iff, List.mem_dedup, List.mem_map]
  calc (out.map Prod.snd).sum
      = ((out.map Prod.fst).map (uses os)).sum := by rw [hCounts]
    _ = ((os.map Occurrence.pattern).dedup.map (uses os)).sum := (hNames.map _).sum_eq
    _ = (os.map Occurrence.pattern).length := List.sum_map_count_dedup_eq_length _
    _ = os.length := List.length_map _

theorem getD_lookup (h : Ranks os out) (name : String) :
    (out.lookup name).getD 0 = uses os name := by
  cases hLookup : out.lookup name with
  | some count =>
    obtain ⟨front, back, rfl, _⟩ := List.lookup_eq_some_iff.mp hLookup
    exact h.count_eq (name, count) (by simp)
  | none =>
    rw [List.lookup_eq_none_iff] at hLookup
    by_contra hUses
    have hPos : 0 < uses os name := Nat.pos_of_ne_zero (Ne.symm hUses)
    have hEntry := hLookup _ ((h.mem_iff (name, uses os name)).mpr ⟨rfl, hPos⟩)
    simp at hEntry

end Ranks

/-! ## Sorting the entries -/

namespace Frequencies

theorem pairwise_rankedBefore (entries : List (String × Nat)) :
    (entries.mergeSort rankedBefore).Pairwise fun a b => rankedBefore a b = true := by
  apply List.pairwise_mergeSort
  · intro a b c hab hbc
    rw [rankedBefore_iff] at hab hbc ⊢
    rcases hab with hab | rfl
    · rcases hbc with hbc | rfl
      · exact .inl (hab.trans hbc)
      · exact .inl hab
    · exact hbc
  · intro a b
    rw [Bool.or_eq_true, rankedBefore_iff, rankedBefore_iff]
    rcases Outranks.total a b with h | h | h
    · exact .inl (.inl h)
    · exact .inl (.inr h)
    · exact .inr (.inl h)

theorem ranks_mergeSort {os : List Occurrence} {entries : List (String × Nat)}
    (h : entries.Perm (ofList os).counts.toList) :
    Ranks os (entries.mergeSort rankedBefore) := by
  have hPerm := (List.mergeSort_perm entries rankedBefore).trans h
  have hMem (entry : String × Nat) : entry ∈ entries.mergeSort rankedBefore ↔
      entry.2 = uses os entry.1 ∧ 0 < entry.2 := by
    rw [hPerm.mem_iff, mem_toList_ofList_iff]
  have hNodup : (entries.mergeSort rankedBefore).Nodup :=
    hPerm.nodup_iff.mpr (nodup_names_toList _).of_map
  refine ⟨?_, fun entry hEntry => ((hMem entry).mp hEntry).1, ?_⟩
  · intro name
    rw [← uses_pos_iff, List.mem_map]
    constructor
    · rintro ⟨entry, hEntry, rfl⟩
      obtain ⟨hCount, hPos⟩ := (hMem entry).mp hEntry
      exact hCount ▸ hPos
    · intro hPos
      exact ⟨(name, uses os name), (hMem _).mpr ⟨rfl, hPos⟩, rfl⟩
  · apply (hNodup.and (pairwise_rankedBefore entries)).imp
    rintro a b ⟨hNe, hBefore⟩
    exact ((rankedBefore_iff a b).mp hBefore).resolve_right hNe

theorem ranks_ranked (os : List Occurrence) : Ranks os (ofList os).ranked :=
  ranks_mergeSort (List.Perm.refl _)

/-- The ranking of a list has each of its names once, with the number of its occurrences, the most
frequent first and equally frequent ones in the order of their bytes. No other list is like this.
The counts add up to the number of occurrences, there are as many entries as the table says, and
they tell of every name what the table tells. Neither the order of the occurrences nor that of the
entries of the table has any influence. -/
theorem ranked_ofList (os : List Occurrence) :
    (∀ out, Ranks os out ↔ out = (ofList os).ranked) ∧
      ((ofList os).ranked.map Prod.fst).Nodup ∧
      ((ofList os).ranked.map Prod.snd).sum = os.length ∧
      (ofList os).ranked.length = (ofList os).size ∧
      (∀ name, ((ofList os).ranked.lookup name).getD 0 = (ofList os).count name) ∧
      (∀ os', os'.Perm os → (ofList os').ranked = (ofList os).ranked) ∧
      ∀ entries : List (String × Nat), entries.Perm (ofList os).counts.toList →
        entries.mergeSort rankedBefore = (ofList os).ranked := by
  have hRanks := ranks_ranked os
  refine ⟨?_, hRanks.nodup_names, hRanks.sum_counts, ?_, ?_, ?_, ?_⟩
  · intro out
    constructor
    · intro h
      exact h.unique hRanks
    · rintro rfl
      exact hRanks
  · exact (List.length_mergeSort _).trans Std.HashMap.length_toList
  · intro name
    rw [hRanks.getD_lookup, count_ofList]
  · intro os' hPerm
    exact ((ranks_ranked os').of_perm hPerm).unique hRanks
  · intro entries hEntries
    exact (ranks_mergeSort hEntries).unique hRanks

end Frequencies

end PatternAudit
