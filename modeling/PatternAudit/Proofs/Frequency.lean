import Mathlib.Data.Prod.Lex
import PatternAudit.Frequency
import PatternAudit.Proofs.ByteOrder

/-!
# Frequencies as counts, preference as an order

The table of frequencies is filled one occurrence at a time. Read back, it is the plain count of the
names in the list (`count_ofList`). Preference compares three things one after the other: the count
of the name, the bytes of the name and the start. These three are the `standing` of an occurrence,
and standings are totally ordered. To be preferred is to stand less (`preference_eq_lt_iff`), to be
preferred or alike is to stand no greater (`isLE_preference_iff`). Two occurrences that end at the
same location and stand alike are one and the same (`eq_of_standing_eq`), which is what makes
survivors unique.

Nothing is assumed of the table in the statements on preference: it may have been filled from other
occurrences than those compared.
-/

namespace PatternAudit

/-- The number of occurrences in the list that carry the name. -/
def uses (os : List Occurrence) (name : String) : Nat :=
  (os.map Occurrence.pattern).count name

theorem uses_eq_of_perm {os ps : List Occurrence} (h : os.Perm ps) : uses os = uses ps := by
  funext name
  exact (h.map Occurrence.pattern).count_eq name

namespace Frequencies

/-! ## The table is the count -/

theorem count_empty (name : String) : empty.count name = 0 := by
  unfold empty count
  exact Std.HashMap.getD_empty

theorem count_add (f : Frequencies) (pattern name : String) :
    (f.add pattern).count name = f.count name + if pattern = name then 1 else 0 := by
  unfold add count
  rw [Std.HashMap.getD_insert]
  by_cases h : pattern = name
  · subst h
    simp
  · simp [h]

theorem count_foldl_add (f : Frequencies) (os : List Occurrence) (name : String) :
    (os.foldl (fun f o => f.add o.pattern) f).count name = f.count name + uses os name := by
  induction os generalizing f with
  | nil => rfl
  | cons o os ih =>
    rw [List.foldl_cons, ih, count_add, uses, uses, List.map_cons, List.count_cons]
    simp only [beq_iff_eq]
    omega

theorem count_ofList (os : List Occurrence) : (ofList os).count = uses os := by
  funext name
  rw [ofList, count_foldl_add, count_empty, Nat.zero_add]

theorem count_ofList_eq_zero_iff {os : List Occurrence} {name : String} :
    (ofList os).count name = 0 ↔ name ∉ os.map Occurrence.pattern := by
  rw [count_ofList, uses, List.count_eq_zero]

end Frequencies

/-! ## The order of preference -/

/-- What an occurrence is preferred by, for given counts of the names: the count of its own name,
the bytes of that name and the start, compared in this order. -/
def standing (count : String → Nat) (o : Occurrence) : Nat ×ₗ List Nat ×ₗ Nat :=
  toLex (count o.pattern, toLex (Utf8.bytes o.pattern, o.start.toNat))

theorem standing_eq_iff {count : String → Nat} {a b : Occurrence} :
    standing count a = standing count b ↔ a.pattern = b.pattern ∧ a.start = b.start := by
  constructor
  · intro h
    have hRest := congrArg (fun k => ofLex (ofLex k).2) h
    simp only [standing, ofLex_toLex, Prod.mk.injEq] at hRest
    exact ⟨Utf8.bytes_injective hRest.1, UInt64.toNat_inj.mp hRest.2⟩
  · rintro ⟨hPattern, hStart⟩
    rw [standing, standing, hPattern, hStart]

theorem eq_of_standing_eq {count : String → Nat} {a b : Occurrence}
    (h : standing count a = standing count b) (hStop : a.stop = b.stop) : a = b := by
  obtain ⟨hPattern, hStart⟩ := standing_eq_iff.mp h
  cases a
  cases b
  simp only at hPattern hStart hStop
  subst hPattern hStart hStop
  rfl

namespace Frequencies

theorem preference_eq_lt_iff (f : Frequencies) (a b : Occurrence) :
    f.preference a b = .lt ↔ standing f.count a < standing f.count b := by
  have hStart : compare a.start b.start = .lt ↔ a.start.toNat < b.start.toNat := by
    rw [Std.compare_eq_lt, UInt64.lt_iff_toNat_lt]
  unfold preference standing
  simp only [Ordering.then_eq_lt, Ordering.then_eq_eq, compare_lt_iff_lt, Std.compare_eq_iff_eq,
    hStart, Prod.Lex.toLex_lt_toLex, Utf8.bytes_lt_iff, Utf8.bytes_injective.eq_iff]
  -- What remains is the same three comparisons, bracketed to the left and to the right.
  tauto

theorem preference_eq_eq_iff (f : Frequencies) (a b : Occurrence) :
    f.preference a b = .eq ↔ a.pattern = b.pattern ∧ a.start = b.start := by
  unfold preference
  simp only [Ordering.then_eq_eq, Std.compare_eq_iff_eq]
  constructor
  · rintro ⟨⟨_, hPattern⟩, hStart⟩
    exact ⟨hPattern, hStart⟩
  · rintro ⟨hPattern, hStart⟩
    exact ⟨⟨congrArg f.count hPattern, hPattern⟩, hStart⟩

theorem isLE_preference_iff (f : Frequencies) (a b : Occurrence) :
    (f.preference a b).isLE = true ↔ standing f.count a ≤ standing f.count b := by
  rw [Ordering.isLE_iff_eq_lt_or_eq_eq, preference_eq_lt_iff, preference_eq_eq_iff, le_iff_lt_or_eq,
    standing_eq_iff]

theorem preference_swap (f : Frequencies) (a b : Occurrence) :
    f.preference b a = (f.preference a b).swap := by
  unfold preference
  rw [Ordering.swap_then, Ordering.swap_then, ← Std.OrientedOrd.eq_swap, ← Std.OrientedOrd.eq_swap,
    ← Std.OrientedOrd.eq_swap]

/-- Preference puts all occurrences in order, whatever table it reads the counts from. In a table
that was filled from a list exactly the names that are not in the list have the count `0`.
Exchanging two occurrences reverses their comparison, being preferred or alike is passed on, and to
be preferred is to stand less. Only occurrences with one name and one start are alike, and if these
also end at the same location, they are the same. -/
theorem preference_totalPreorder :
    (∀ os name, (ofList os).count name = 0 ↔ name ∉ os.map Occurrence.pattern) ∧
      ∀ f : Frequencies,
        (∀ a b, f.preference b a = (f.preference a b).swap) ∧
          (∀ a b c, (f.preference a b).isLE = true → (f.preference b c).isLE = true →
            (f.preference a c).isLE = true) ∧
          (∀ a b, f.preference a b = .lt ↔ standing f.count a < standing f.count b) ∧
          (∀ a b, f.preference a b = .eq ↔ a.pattern = b.pattern ∧ a.start = b.start) ∧
          ∀ a b : Occurrence, a.stop = b.stop ∧ f.preference a b = .eq ↔ a = b := by
  refine ⟨fun os name => count_ofList_eq_zero_iff, ?_⟩
  intro f
  refine ⟨f.preference_swap, ?_, f.preference_eq_lt_iff, f.preference_eq_eq_iff, ?_⟩
  · intro a b c hab hbc
    rw [isLE_preference_iff] at hab hbc ⊢
    exact hab.trans hbc
  · intro a b
    rw [preference_eq_eq_iff]
    constructor
    · rintro ⟨hStop, hAlike⟩
      have hStanding : standing f.count a = standing f.count b := standing_eq_iff.mpr hAlike
      exact eq_of_standing_eq hStanding hStop
    · rintro rfl
      exact ⟨rfl, rfl, rfl⟩

/-- A table that knows one name. -/
def copyTable : Frequencies := ofList [⟨"copy", 0, 1⟩]

/-- Two occurrences have a name that the table does not know and differ in their starts. The third
has a lesser name, but one that the table knows. -/
theorem preference_totalPreorder_unrelated :
    copyTable.count "scan" = 0 ∧
      copyTable.preference ⟨"scan", 5, 9⟩ ⟨"scan", 8, 9⟩ = .lt ∧
        copyTable.preference ⟨"scan", 8, 9⟩ ⟨"copy", 0, 9⟩ = .lt ∧
          (copyTable.preference ⟨"scan", 5, 9⟩ ⟨"copy", 0, 9⟩).isLE = true := by
  obtain ⟨hCount, hOrder⟩ := preference_totalPreorder
  obtain ⟨_, hTrans, hLt, _⟩ := hOrder copyTable
  have hTable : copyTable.count = uses [⟨"copy", 0, 1⟩] := count_ofList _
  have hStart : copyTable.preference ⟨"scan", 5, 9⟩ ⟨"scan", 8, 9⟩ = .lt := by
    rw [hLt, hTable]
    decide +kernel
  have hRare : copyTable.preference ⟨"scan", 8, 9⟩ ⟨"copy", 0, 9⟩ = .lt := by
    rw [hLt, hTable]
    decide +kernel
  refine ⟨(hCount _ _).mpr (by decide), hStart, hRare, ?_⟩
  exact hTrans _ ⟨"scan", 8, 9⟩ _ (by rw [hStart]; rfl) (by rw [hRare]; rfl)

end Frequencies

end PatternAudit
