import Mathlib.Data.List.Infix
import PatternAudit.Proofs.FixedPlaces
import PatternAudit.Report.Delimited

/-!
# Cutting a row into its columns

The columns of a row are written one after the other with a separator between them, and nothing is
quoted. Whether they can be found again depends on where separators are met in the row.

* `cut` takes the first separator, then the first one after that, and so on. The library cuts
  strings in the same places (`toList_split_eq_cut`).
* No piece that is cut off holds a separator (`not_infix_of_mem_cut`).
* A separator could also be met across the end of a field, made of a piece of the field and a piece
  of the separator that follows it. This cannot happen if no separator begins like one ends
  (`Unbordered.not_prefix`), and then fields that hold no separator are found again
  (`Unbordered.cut_intercalate`).

Both styles of rows have such separators, and a character in them that is in no number. So only the
three texts of a row matter.
-/

namespace PatternAudit.Report

open String.Slice.Pattern.Model (split_endPos split_eq_of_isLongestMatchAt
  split_eq_next_of_not_matchesAt)
open String.Slice.Pattern.Model.ForwardStringSearcher (isLongestMatchAt_iff_splits
  matchesAt_iff_splits strictPatternModel lawfulToForwardSearcherModel)

/-! ## Cutting -/

/-- Cuts a text at every separator, from the left. -/
def cut (separator : List Char) : List Char → List (List Char)
  | [] => [[]]
  | c :: t =>
    if separator <+: c :: t then [] :: cut separator (t.drop (separator.length - 1))
    else (cut separator t).modifyHead (c :: ·)
termination_by t => t.length
decreasing_by all_goals grind

/-- The first piece is where the text begins. -/
theorem exists_cut_eq_cons (separator t : List Char) :
    ∃ first rest, cut separator t = first :: rest ∧ first <+: t := by
  fun_induction cut separator t with
  | case1 => exact ⟨[], [], rfl, List.nil_prefix⟩
  | case2 => exact ⟨[], _, rfl, List.nil_prefix⟩
  | case3 c t _ ih =>
    obtain ⟨first, rest, hCut, hFirst⟩ := ih
    refine ⟨c :: first, rest, ?_, List.cons_prefix_cons.mpr ⟨rfl, hFirst⟩⟩
    rw [hCut, List.modifyHead_cons]

section

variable {separator : List Char} (hSeparator : separator ≠ [])

include hSeparator

theorem not_infix_of_mem_cut (t : List Char) :
    ∀ piece ∈ cut separator t, ¬ separator <:+: piece := by
  fun_induction cut separator t with
  | case1 => simpa using hSeparator
  | case2 c t _ ih => simpa [hSeparator] using ih
  | case3 c t hNot ih =>
    obtain ⟨first, rest, hCut, hFirst⟩ := exists_cut_eq_cons separator t
    rw [hCut, List.forall_mem_cons] at ih
    rw [hCut, List.modifyHead_cons, List.forall_mem_cons, List.infix_cons_iff, not_or]
    have hHere : ¬ separator <+: c :: first := fun hHere =>
      hNot (hHere.trans (List.cons_prefix_cons.mpr ⟨rfl, hFirst⟩))
    exact ⟨⟨hHere, ih.1⟩, ih.2⟩

theorem cut_append (t : List Char) : cut separator (separator ++ t) = [] :: cut separator t := by
  obtain ⟨c, rest, rfl⟩ := List.exists_cons_of_ne_nil hSeparator
  have hPrefix : c :: rest <+: c :: (rest ++ t) := List.prefix_append (c :: rest) t
  rw [List.cons_append, cut, if_pos hPrefix]
  simp

end

theorem cut_of_not_infix {separator t : List Char} (h : ¬ separator <:+: t) :
    cut separator t = [t] := by
  induction t with
  | nil => rw [cut]
  | cons c t ih =>
    rw [List.infix_cons_iff, not_or] at h
    rw [cut, if_neg h.1, ih h.2, List.modifyHead_cons]

/-! ## Separators that do not overlap -/

/-- No proper part of the separator both begins and ends it. -/
def Unbordered (separator : List Char) : Prop :=
  ∀ border ∈ separator.inits, border <:+ separator → border = [] ∨ border = separator

instance (separator : List Char) : Decidable (Unbordered separator) :=
  inferInstanceAs (Decidable (∀ border ∈ separator.inits,
    border <:+ separator → border = [] ∨ border = separator))

namespace Unbordered

variable {separator : List Char} (hUnbordered : Unbordered separator)

include hUnbordered

theorem not_prefix {field : List Char} (hNil : field ≠ []) (hField : ¬ separator <:+: field)
    (t : List Char) : ¬ separator <+: field ++ (separator ++ t) := by
  intro hPrefix
  have hStart : field <+: field ++ (separator ++ t) := List.prefix_append ..
  rcases Nat.lt_or_ge field.length separator.length with hShort | hLong
  · -- The rest of the separator after the field begins the separator that follows the field.
    obtain ⟨border, rfl⟩ := List.prefix_of_prefix_length_le hStart hPrefix hShort.le
    have hBorder : border <+: field ++ border := by
      have hRest := (List.prefix_append_right_inj field).mp hPrefix
      exact List.prefix_of_prefix_length_le hRest (List.prefix_append ..) (by simp)
    rcases hUnbordered border ((List.mem_inits _ _).mpr hBorder) (List.suffix_append ..) with
      rfl | hAll
    · simp at hShort
    · exact hNil (List.self_eq_append_left.mp hAll)
  · exact hField (List.prefix_of_prefix_length_le hPrefix hStart hLong).isInfix

variable (hSeparator : separator ≠ [])

include hSeparator

theorem cut_field {field : List Char} (hField : ¬ separator <:+: field) (t : List Char) :
    cut separator (field ++ (separator ++ t)) = field :: cut separator t := by
  induction field with
  | nil => exact cut_append hSeparator t
  | cons c field ih =>
    have hNot := hUnbordered.not_prefix (List.cons_ne_nil c field) hField t
    rw [List.infix_cons_iff, not_or] at hField
    rw [List.cons_append] at hNot ⊢
    rw [cut, if_neg hNot, ih hField.2, List.modifyHead_cons]

theorem cut_intercalate {fields : List (List Char)} (hFields : fields ≠ []) :
    cut separator (separator.intercalate fields) = fields ↔
      ∀ field ∈ fields, ¬ separator <:+: field := by
  constructor
  · intro hCut field hField
    rw [← hCut] at hField
    exact not_infix_of_mem_cut hSeparator _ field hField
  · intro hAll
    induction fields with
    | nil => exact absurd rfl hFields
    | cons field fields ih =>
      obtain ⟨hField, hRest⟩ := List.forall_mem_cons.mp hAll
      cases fields with
      | nil => rw [List.intercalate_singleton, cut_of_not_infix hField]
      | cons next fields =>
        rw [List.intercalate_cons_cons, List.append_assoc, hUnbordered.cut_field hSeparator hField,
          ih (List.cons_ne_nil next fields) hRest]

end Unbordered

/-! ## Strings -/

theorem modifyHead_empty (l : List (List Char)) : l.modifyHead ("".toList ++ ·) = l := by
  cases l <;> rfl

section

open String.Slice
open String.Slice.Pattern (Model.split Model.IsLongestMatchAt Model.MatchesAt)

variable {s : String.Slice} {first curr : s.Pos} (hle : first ≤ curr)
  {before middle after : String} (hFirst : first.Splits before (middle ++ after))
  (hCurr : curr.Splits (before ++ middle) after)

include hFirst hCurr

theorem copy_subslice : (s.subslice first curr hle).copy = middle := by
  obtain ⟨_, hCopy⟩ := copy_slice_eq_iff_splits.mpr ⟨before, after, hFirst, hCurr⟩
  rw [Subslice.copy_eq, Function.comp_apply, toSlice_subslice, hCopy]

/-- What is left of the text is cut, and its first piece goes on with `middle`, which has been
passed without a separator. -/
theorem map_split_eq_cut {separator : String} [Pattern.Model.StrictPatternModel separator]
    (hSeparator : separator ≠ "") :
    (Model.split separator first curr hle).map (fun piece => piece.copy.toList) =
      (cut separator.toList after.toList).modifyHead (middle.toList ++ ·) := by
  generalize hText : after.toList = t
  fun_induction cut separator.toList t generalizing first curr before middle after with
  | case1 =>
    have hPiece := copy_subslice hle hFirst hCurr
    have hEmpty : after = "" := String.toList_eq_nil_iff.mp hText
    obtain rfl : curr = s.endPos := hCurr.eq_endPos_iff.mpr hEmpty
    rw [split_endPos, List.map_singleton, hPiece, List.modifyHead_cons, List.append_nil]
  | case2 c t hPrefix ih =>
    obtain ⟨u, hu⟩ := hPrefix
    obtain rfl : after = separator ++ String.ofList u := by
      rw [← String.toList_inj, hText, String.toList_append, String.toList_ofList, hu]
    have hRest : u = t.drop (separator.toList.length - 1) := by
      have hDrop := congrArg (List.drop separator.toList.length) hu
      obtain ⟨d, v, hd⟩ :=
        List.exists_cons_of_ne_nil (String.toList_eq_nil_iff.not.mpr hSeparator)
      rw [List.drop_left, hd] at hDrop
      rw [hDrop, hd]
      rfl
    have hStop := hCurr.splits_rotateRight
    have hMatch : Model.IsLongestMatchAt separator curr hCurr.rotateRight :=
      isLongestMatchAt_iff_splits.mpr ⟨_, _, hCurr, hStop⟩
    have hFirst' : hCurr.rotateRight.Splits (before ++ middle ++ separator)
        ("" ++ String.ofList u) := by
      rwa [String.empty_append]
    have hCurr' : hCurr.rotateRight.Splits (before ++ middle ++ separator ++ "")
        (String.ofList u) := by
      rwa [String.append_empty]
    rw [split_eq_of_isLongestMatchAt hMatch, List.map_cons, copy_subslice hle hFirst hCurr,
      ih (Std.le_refl _) hFirst' hCurr' (by rw [String.toList_ofList, hRest]), modifyHead_empty,
      List.modifyHead_cons, List.append_nil]
  | case3 c t hNot ih =>
    obtain rfl : after = String.singleton c ++ String.ofList t := by
      rw [← String.toList_inj, hText]
      simp
    have hNext := hCurr.next
    have hNone : ¬ Model.MatchesAt separator curr := by
      rw [matchesAt_iff_splits]
      rintro ⟨_, rest, hSplits⟩
      have hRight := congrArg String.toList (hCurr.eq_right hSplits)
      rw [hText, String.toList_append] at hRight
      exact hNot ⟨_, hRight.symm⟩
    rw [String.append_assoc] at hNext
    rw [← String.append_assoc] at hFirst
    rw [split_eq_next_of_not_matchesAt hCurr.ne_endPos_of_singleton hNone,
      ih _ hFirst hNext String.toList_ofList, List.modifyHead_modifyHead]
    simp [Function.comp_def]

end

theorem toList_split_eq_cut {separator : String} (hSeparator : separator ≠ "") (s : String) :
    ((s.split separator).toList.map String.Slice.copy).map String.toList =
      cut separator.toList s.toList := by
  have := strictPatternModel hSeparator
  have := lawfulToForwardSearcherModel hSeparator
  have hFirst : s.toSlice.startPos.Splits "" ("" ++ s) := by simp
  have hCurr : s.toSlice.startPos.Splits ("" ++ "") s := by simp
  have hCut := map_split_eq_cut (Std.le_refl _) hFirst hCurr hSeparator
  rw [modifyHead_empty, ← String.Slice.Pattern.toList_splitToSubslice_eq_modelSplit] at hCut
  rw [← hCut, String.split_eq_split_toSlice, String.Slice.toList_split_eq_splitToSubslice,
    List.map_map, List.map_map, String.Slice.Subslice.copy_eq]
  rfl

/-! ## Rows -/

/-- Columns in this style are kept apart: separators do not overlap, and no number holds one. -/
structure RowStyle.Separates (style : RowStyle) : Prop where
  unbordered : Unbordered style.separator.toList
  exists_mark : ∃ c ∈ style.separator.toList,
    c ≠ '-' ∧ c ≠ style.decimal ∧ c.isAlphanum = false

namespace RowStyle

theorem separates_csv : csv.Separates where
  unbordered := by decide
  exists_mark := ⟨' ', by decide, by decide, by decide, by decide⟩

theorem separates_tsv : tsv.Separates where
  unbordered := by decide
  exists_mark := ⟨'\t', by decide, by decide, by decide, by decide⟩

namespace Separates

variable {style : RowStyle} (hStyle : style.Separates)

include hStyle

theorem separator_ne : style.separator ≠ "" := by
  obtain ⟨c, hc, -⟩ := hStyle.exists_mark
  rintro hEmpty
  rw [hEmpty] at hc
  cases hc

theorem not_infix_of_forall {t : List Char}
    (h : ∀ c ∈ t, c = '-' ∨ c = style.decimal ∨ c.isAlphanum) :
    ¬ style.separator.toList <:+: t := by
  obtain ⟨c, hc, hSign, hDecimal, hAlphanum⟩ := hStyle.exists_mark
  intro hInfix
  rcases h c (hInfix.subset hc) with h | h | h
  · exact hSign h
  · exact hDecimal h
  · rw [hAlphanum] at h
    cases h

theorem not_infix_repr (n : Nat) : ¬ style.separator.toList <:+: n.repr.toList := by
  refine hStyle.not_infix_of_forall fun c hc => ?_
  rw [Nat.repr_eq_ofList_toDigits, String.toList_ofList] at hc
  exact .inr (.inr (Places.isAlphanum_of_isDigit (Places.isDigit_of_mem_toDigits hc)))

theorem not_infix_text (x : Float) :
    ¬ style.separator.toList <:+: (Places.text x style.decimal).toList :=
  hStyle.not_infix_of_forall fun _ => Places.mem_text

theorem split_intercalate_iff {fields : List String} (hFields : fields ≠ []) :
    ((style.separator.intercalate fields).split style.separator).toList.map String.Slice.copy =
        fields ↔ ∀ field ∈ fields, ¬ style.separator.toList <:+: field.toList := by
  have hSeparator := String.toList_eq_nil_iff.not.mpr hStyle.separator_ne
  have hFields' : fields.map String.toList ≠ [] := List.map_eq_nil_iff.not.mpr hFields
  rw [← (List.map_injective_iff.mpr fun _ _ => String.toList_injective).eq_iff,
    toList_split_eq_cut hStyle.separator_ne, String.toList_intercalate,
    hStyle.unbordered.cut_intercalate hSeparator hFields', List.forall_mem_map]

end Separates

end RowStyle

/-- There is a row unless there is nothing to report. It is cut into its nine columns exactly if
none of the three texts in it holds the separator. -/
theorem split_row {style : RowStyle} (hStyle : style = .csv ∨ style = .tsv) (run : RunInfo)
    {s : Summary} (hTotal : 0 < s.total) :
    ∃ row, row? style run s = some row ∧
      ((row.split style.separator).toList.map String.Slice.copy =
          [run.executable, s.correct.repr, s.missed.repr, s.wrong.repr,
            Places.text run.realTime style.decimal, Places.text run.cpuTime style.decimal,
            run.matcher, run.architecture, s.patternsUsed.repr] ↔
        ∀ t ∈ [run.executable, run.matcher, run.architecture],
          ¬ style.separator.toList <:+: t.toList) := by
  have hSeparates : style.Separates := by
    rcases hStyle with rfl | rfl
    · exact RowStyle.separates_csv
    · exact RowStyle.separates_tsv
  have hEmpty : s.isEmpty = false := by
    simpa [Summary.isEmpty] using hTotal.ne'
  have hRow : row? style run s = some (style.separator.intercalate (columns style run s)) := by
    rw [row?, hEmpty]
    rfl
  refine ⟨_, hRow, ?_⟩
  rw [columns, hSeparates.split_intercalate_iff (List.cons_ne_nil _ _)]
  simp only [List.forall_mem_cons, hSeparates.not_infix_repr, hSeparates.not_infix_text,
    not_false_eq_true, true_and]

/-- Texts that end and begin with half a separator, and an empty one. -/
def oddRun : RunInfo where
  executable := "a,"
  matcher := " b"
  architecture := ""

theorem split_row_oddRun :
    0 < (Summary.mk 1 2 1 0 1).total ∧
      row? .csv oddRun ⟨1, 2, 1, 0, 1⟩ = some "a,, 1, 0, 2, 0, 0,  b, , 1" ∧
      ("a,, 1, 0, 2, 0, 0,  b, , 1".split ", ").toList.map String.Slice.copy =
        ["a,", "1", "0", "2", "0", "0", " b", "", "1"] := by
  have hTotal : 0 < (Summary.mk 1 2 1 0 1).total := by decide
  have hRow : row? .csv oddRun ⟨1, 2, 1, 0, 1⟩ = some "a,, 1, 0, 2, 0, 0,  b, , 1" := by
    decide +kernel
  obtain ⟨row, hSome, hSplit⟩ := split_row (.inl rfl) oddRun hTotal
  obtain rfl : "a,, 1, 0, 2, 0, 0,  b, , 1" = row := Option.some.inj (hRow.symm.trans hSome)
  refine ⟨hTotal, hRow, ?_⟩
  exact (hSplit.mpr (by decide)).trans (by decide +kernel)

end PatternAudit.Report
