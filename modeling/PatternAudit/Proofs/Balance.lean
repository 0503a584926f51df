import Mathlib.Data.Finset.Card
import Mathlib.Data.List.Perm.Subperm
import PatternAudit.CommandLine.Program
import PatternAudit.Proofs.ExactDouble
import PatternAudit.Proofs.Limit
import PatternAudit.Proofs.Scoring

/-!
# The figures of a scoring balance

The figures count four lists that different functions make.

* `Scoring.Balances` relates them to each other and to the two lists that were scored.
  `balances_score` has it for every scoring, with collisions left in or resolved.
* `stdout_of_asksRow`: the row of two files is printed unless both of them are empty.
* `counts_le`: files that can be loaded are short enough that every figure fits in a machine word
  and is a double without rounding (`isExactCount_of_le`).
-/

namespace PatternAudit

/-! ## Sizes -/

/-- Of all that end at one location one is left. -/
theorem length_resolveCollisions (os : List Occurrence) :
    (resolveCollisions os).length = (os.map Occurrence.stop).toFinset.card := by
  have hKeeps := keeps_resolveCollisions os
  have hSame : ((resolveCollisions os).map Occurrence.stop).toFinset =
      (os.map Occurrence.stop).toFinset := by
    ext location
    rw [List.mem_toFinset, List.mem_toFinset, hKeeps.mem_stops_iff]
  have hCard := List.toFinset_card_of_nodup hKeeps.nodup_stops
  rw [← hSame, hCard, List.length_map]

theorem length_patternsUsed_le (detected reference : List Occurrence) :
    (classify detected reference).patternsUsed.length ≤
      (classify detected reference).correct.length := by
  have hSplit := splitsByLocation_classify detected reference
  have hNodup : (classify detected reference).patternsUsed.Nodup := by
    refine hSplit.ascending.imp ?_
    rintro a b hLt rfl
    exact lt_irrefl _ hLt
  have hSubset : (classify detected reference).patternsUsed ⊆
      (classify detected reference).correct.map Occurrence.pattern := by
    intro name hName
    obtain ⟨o, ho, rfl⟩ := (hSplit.mem_patternsUsed name).mp hName
    exact List.mem_map_of_mem ho
  have hLength := (hNodup.subperm hSubset).length_le
  rwa [List.length_map] at hLength

/-- A detection is correct because of a reference occurrence, which it finds. -/
theorem correct_eq_nil_iff (detected reference : List Occurrence) :
    (classify detected reference).correct = [] ↔ (classify detected reference).found = [] := by
  have hSplit := splitsByLocation_classify detected reference
  rw [hSplit.correct, hSplit.found, List.filter_eq_nil_iff, List.filter_eq_nil_iff]
  simp only [decide_eq_true_iff]
  constructor
  · rintro hNone r hr ⟨d, hd, hStop⟩
    exact hNone d hd ⟨r, hr, hStop.symm⟩
  · rintro hNone d hd ⟨r, hr, hStop⟩
    exact hNone r hr ⟨d, hd, hStop.symm⟩

/-! ## The balance -/

/-- How the figures of a scoring of `detected` against `reference` hang together. -/
structure Scoring.Balances (resolve : Bool) (detected reference : List Occurrence)
    (s : Scoring) : Prop where
  scored_le : s.scored.length ≤ s.detectedCount
  detectedCount : s.detectedCount = detected.length
  detected_split : s.detectedCount =
    s.classification.correct.length + s.classification.wrong.length + s.collisionsResolved
  collisionsResolved : s.collisionsResolved =
    if resolve then detected.length - (detected.map Occurrence.stop).toFinset.card else 0
  distinct_le : (detected.map Occurrence.stop).toFinset.card ≤ detected.length
  reference_split :
    reference.length = s.classification.found.length + s.classification.missed.length
  total : s.summary.total = s.classification.correct.length + s.classification.wrong.length +
    s.classification.missed.length
  patternsUsed_le : s.summary.patternsUsed ≤ s.classification.correct.length
  correct_nil_iff : s.classification.correct = [] ↔ s.classification.found = []
  isEmpty_iff : s.summary.isEmpty ↔ detected = [] ∧ reference = []

section

variable (resolve : Bool) (detected reference : List Occurrence)

theorem length_scored_le :
    (score resolve detected reference).scored.length ≤ detected.length := by
  cases resolve with
  | false => exact Nat.le_refl _
  | true =>
    have hCard := List.toFinset_card_le (detected.map Occurrence.stop)
    rw [List.length_map] at hCard
    exact (length_resolveCollisions detected).trans_le hCard

theorem length_correct_add_wrong :
    (score resolve detected reference).classification.correct.length +
      (score resolve detected reference).classification.wrong.length =
      (score resolve detected reference).scored.length := by
  have hPerm := correct_append_wrong_perm (score resolve detected reference).scored reference
  rw [← hPerm.length_eq, List.length_append]
  rfl

theorem length_found_add_missed :
    (score resolve detected reference).classification.found.length +
      (score resolve detected reference).classification.missed.length = reference.length := by
  have hPerm := found_append_missed_perm (score resolve detected reference).scored reference
  rw [← hPerm.length_eq, List.length_append]
  rfl

theorem scored_eq_nil_iff :
    (score resolve detected reference).scored = [] ↔ detected = [] := by
  have hStops := mem_stops_scored_iff resolve detected reference
  constructor
  · intro hScored
    rw [hScored] at hStops
    rw [← List.map_eq_nil_iff, List.eq_nil_iff_forall_not_mem]
    intro location hLocation
    exact absurd ((hStops location).mpr hLocation) (by simp)
  · intro hDetected
    rw [hDetected] at hStops ⊢
    rw [← List.map_eq_nil_iff, List.eq_nil_iff_forall_not_mem]
    intro location hLocation
    exact absurd ((hStops location).mp hLocation) (by simp)

/-- Where nothing is scored, every reference occurrence is missed. -/
theorem isEmpty_summary_iff :
    (score resolve detected reference).summary.isEmpty ↔ detected = [] ∧ reference = [] := by
  have hScored := length_correct_add_wrong resolve detected reference
  have hReference := length_found_add_missed resolve detected reference
  have hNil := scored_eq_nil_iff resolve detected reference
  have hFound : (score resolve detected reference).classification.correct = [] ↔
      (score resolve detected reference).classification.found = [] :=
    correct_eq_nil_iff _ _
  have hTotal : (score resolve detected reference).summary.isEmpty ↔
      (score resolve detected reference).classification.correct.length +
        (score resolve detected reference).classification.missed.length +
        (score resolve detected reference).classification.wrong.length = 0 :=
    beq_iff_eq
  rw [hTotal, ← hNil, ← List.length_eq_zero_iff, ← @List.length_eq_zero_iff _ reference]
  rw [← List.length_eq_zero_iff, ← List.length_eq_zero_iff] at hFound
  omega

theorem balances_score :
    (score resolve detected reference).Balances resolve detected reference := by
  have hScoredLe := length_scored_le resolve detected reference
  have hScored := length_correct_add_wrong resolve detected reference
  have hReference := length_found_add_missed resolve detected reference
  have hCollisions : (score resolve detected reference).collisionsResolved =
      detected.length - (score resolve detected reference).scored.length := rfl
  have hDistinct := List.toFinset_card_le (detected.map Occurrence.stop)
  rw [List.length_map] at hDistinct
  refine ⟨hScoredLe, rfl, ?_, ?_, hDistinct, hReference.symm, ?_, length_patternsUsed_le _ _,
    correct_eq_nil_iff _ _, isEmpty_summary_iff resolve detected reference⟩
  · rw [hScored, hCollisions]
    exact (Nat.add_sub_cancel' hScoredLe).symm
  · rw [hCollisions]
    cases resolve with
    | false => exact Nat.sub_self _
    | true => exact congrArg (detected.length - ·) (length_resolveCollisions detected)
  · exact Nat.add_right_comm _ _ _

end

/-! ## The printed row -/

namespace CommandLine

def Format.rowStyle? : Format → Option Report.RowStyle
  | text | json => none
  | csv => some .csv
  | tsv => some .tsv

/-- The arguments ask for the scoring of two files as a row, and both files can be loaded. -/
inductive AsksRow (disk : Disk) :
    List String → Report.RowStyle → Bool → MatchFile → MatchFile → Prop
  | mk {arguments : List String} {style : Report.RowStyle} {i : Invocation} {o : EvaluateOptions}
    {matchedPath referencePath : Path} {matched reference : MatchFile}
    (hParse : parse arguments = .ok i) (hCommand : i.command = .evaluate o)
    (hStyle : i.format.rowStyle? = some style)
    (hInputs : o.inputs = .ok (matchedPath, referencePath))
    (hMatched : MatchFile.load disk matchedPath = .ok matched)
    (hReference : MatchFile.load disk referencePath = .ok reference) :
    AsksRow disk arguments style o.resolve matched reference

theorem scoringReport_of_rowStyle {format : Format} {style : Report.RowStyle}
    (hStyle : format.rowStyle? = some style) (verbose : Bool) (run : RunInfo) (s : Scoring) :
    scoringReport format verbose run s =
      ((Report.row? style run s.summary).map Report.line).getD "" := by
  cases format with
  | text => cases hStyle
  | json => cases hStyle
  | csv =>
    cases hStyle
    rfl
  | tsv =>
    cases hStyle
    rfl

theorem stdout_of_asksRow {disk : Disk} {arguments : List String} {style : Report.RowStyle}
    {resolve : Bool} {matched reference : MatchFile}
    (h : AsksRow disk arguments style resolve matched reference) :
    (execute disk arguments).stdout =
      if matched.found = [] ∧ reference.found = [] then ""
      else style.separator.intercalate (Report.columns style matched.run
        (score resolve matched.found reference.found).summary) ++ "\n" := by
  obtain ⟨hParse, hCommand, hStyle, hInputs, hMatched, hReference⟩ := h
  rename_i i o _ _
  have hReport : (execute disk arguments).stdout = scoringReport i.format i.verbose matched.run
      (score o.resolve matched.found reference.found) := by
    simp only [execute, hParse, Invocation.run, hCommand, runEvaluate, hInputs, hMatched,
      hReference, Outcome.exit, Outcome.success]
  rw [hReport, scoringReport_of_rowStyle hStyle, Report.row?]
  simp only [isEmpty_summary_iff]
  split_ifs
  · rfl
  · rfl

end CommandLine

/-! ## Figures of loaded files -/

/-- The figures that a scoring is reported by, with the sums that its ratios are taken of. -/
def Scoring.counts (s : Scoring) : List Nat :=
  [s.detectedCount, s.collisionsResolved, s.summary.correct, s.summary.wrong, s.summary.found,
    s.summary.missed, s.summary.patternsUsed, s.summary.total,
    s.summary.correct + s.summary.wrong, s.summary.found + s.summary.missed]

theorem length_found_le_of_load {disk : Disk} {path : Path} {file : MatchFile}
    (h : MatchFile.load disk path = .ok file) : file.found.length ≤ maxMatches := by
  unfold MatchFile.load at h
  cases hOpen : disk path with
  | error e =>
    rw [hOpen] at h
    cases h
  | ok entry =>
    rw [hOpen] at h
    exact MatchFile.length_found_le_of_parse (MatchFile.read_eq_ok_iff.mp h).1

theorem counts_le (resolve : Bool) (detected reference : List Occurrence) :
    ∀ n ∈ (score resolve detected reference).counts, n ≤ detected.length + reference.length := by
  have hBalances := balances_score resolve detected reference
  have hDetected := hBalances.detected_split
  have hReference := hBalances.reference_split
  have hTotal := hBalances.total
  have hUsed := hBalances.patternsUsed_le
  rw [hBalances.detectedCount] at hDetected
  intro n hn
  simp only [Scoring.counts, List.mem_cons, List.not_mem_nil, or_false] at hn
  rcases hn with rfl | rfl | rfl | rfl | rfl | rfl | rfl | rfl | rfl | rfl
  all_goals simp only [hBalances.detectedCount, Scoring.summary, Summary.ofClassification] at *
  all_goals omega

/-- A figure that fits in a machine word and is a double without rounding. -/
structure IsExactCount (n : Nat) : Prop where
  lt_word : n < 2 ^ 32
  value : (Double.ofFloat n.toFloat).value? = some n

theorem isExactCount_of_le {n : Nat} (h : n ≤ 2 * maxMatches) : IsExactCount n := by
  have hMax : 2 * maxMatches = 20000000 := rfl
  exact ⟨by omega, value?_toFloat (by omega)⟩

/-- The figures of every scoring balance. A row is printed for two files unless both are empty.
Files that can be loaded give a total of at most twenty million, and figures that are exact. -/
theorem score_balances :
    (∀ resolve detected reference,
      (score resolve detected reference).Balances resolve detected reference) ∧
    (∀ disk arguments style resolve matched reference,
      CommandLine.AsksRow disk arguments style resolve matched reference →
      (CommandLine.execute disk arguments).stdout =
        if matched.found = [] ∧ reference.found = [] then ""
        else style.separator.intercalate (Report.columns style matched.run
          (score resolve matched.found reference.found).summary) ++ "\n") ∧
    (∀ disk matchedPath referencePath resolve matched reference,
      MatchFile.load disk matchedPath = .ok matched →
      MatchFile.load disk referencePath = .ok reference →
      (score resolve matched.found reference.found).summary.total ≤ 20000000 ∧
        ∀ n ∈ (score resolve matched.found reference.found).counts, IsExactCount n) := by
  refine ⟨balances_score, ?_, ?_⟩
  · intro disk arguments style resolve matched reference h
    exact CommandLine.stdout_of_asksRow h
  · intro disk matchedPath referencePath resolve matched reference hMatched hReference
    have hMatchedLe := length_found_le_of_load hMatched
    have hReferenceLe := length_found_le_of_load hReference
    have hLe : ∀ n ∈ (score resolve matched.found reference.found).counts,
        n ≤ 2 * maxMatches := by
      intro n hn
      have hCount := counts_le resolve matched.found reference.found n hn
      omega
    refine ⟨hLe _ ?_, ?_⟩
    · simp [Scoring.counts]
    · intro n hn
      exact isExactCount_of_le (hLe n hn)

/-- A disk with two files. In the first one two patterns collide. -/
def twoFiles : Disk := fun path =>
  if path = .ofString "m.json" then
    .ok (.file (Utf8.encode
      "\x7b\"matcherName\": \"m\", \"matches\": [[\"a\", 0, 8], [\"b\", 4, 8]]\x7d"))
  else if path = .ofString "r.json" then
    .ok (.file (Utf8.encode "\x7b\"matches\": [[\"c\", 2, 16]]\x7d"))
  else .error .notFound

/-- What the two files hold. -/
def twoFilesMatched : MatchFile := ⟨{matcher := "m"}, [⟨"a", 0, 8⟩, ⟨"b", 4, 8⟩]⟩

def twoFilesReference : MatchFile := ⟨{}, [⟨"c", 2, 16⟩]⟩

theorem load_twoFiles :
    MatchFile.load twoFiles (.ofString "m.json") = .ok twoFilesMatched ∧
      MatchFile.load twoFiles (.ofString "r.json") = .ok twoFilesReference := by
  decide +kernel

theorem asksRow_twoFiles :
    CommandLine.AsksRow twoFiles ["evaluate", "-f", "tsv", "m.json", "r.json"] .tsv true
      twoFilesMatched twoFilesReference := by
  have hParse : CommandLine.parse ["evaluate", "-f", "tsv", "m.json", "r.json"] =
      .ok ⟨false, .tsv, .evaluate ⟨["m.json", "r.json"], none, none, true⟩⟩ := by
    decide +kernel
  exact .mk hParse rfl rfl rfl load_twoFiles.1 load_twoFiles.2

theorem score_balances_twoFiles :
    (score true twoFilesMatched.found twoFilesReference.found).Balances true
        twoFilesMatched.found twoFilesReference.found ∧
      CommandLine.AsksRow twoFiles ["evaluate", "-f", "tsv", "m.json", "r.json"] .tsv true
        twoFilesMatched twoFilesReference ∧
      (CommandLine.execute twoFiles ["evaluate", "-f", "tsv", "m.json", "r.json"]).stdout =
        "\t".intercalate (Report.columns .tsv twoFilesMatched.run
          (score true twoFilesMatched.found twoFilesReference.found).summary) ++ "\n" ∧
      MatchFile.load twoFiles (.ofString "m.json") = .ok twoFilesMatched ∧
      MatchFile.load twoFiles (.ofString "r.json") = .ok twoFilesReference ∧
      (score true twoFilesMatched.found twoFilesReference.found).summary.total ≤ 20000000 ∧
      ∀ n ∈ (score true twoFilesMatched.found twoFilesReference.found).counts,
        IsExactCount n := by
  obtain ⟨hBalances, hRow, hExact⟩ := score_balances
  obtain ⟨hMatched, hReference⟩ := load_twoFiles
  have hStdout := hRow _ _ _ _ _ _ asksRow_twoFiles
  rw [if_neg (by decide)] at hStdout
  exact ⟨hBalances _ _ _, asksRow_twoFiles, hStdout, hMatched, hReference,
    hExact _ _ _ true _ _ hMatched hReference⟩

end PatternAudit
