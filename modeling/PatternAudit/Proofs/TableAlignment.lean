import Mathlib.Data.List.Fold
import Mathlib.Data.List.MinMax
import PatternAudit.Proofs.CommandOutcome
import PatternAudit.Proofs.Ranking

/-!
# The columns of the frequency table

The column of names is made as wide as the longest name is in bytes, but it is filled up by
characters. No name has more characters than bytes (`length_le_utf8ByteSize`), so every name fits. A
count fits as well: it is at most the number of matches that a file may hold, and this has no more
than eight digits. So the two columns end at the same place in all rows (`aligned_of_ranks`).

A name may hold a line end. The rows are therefore not read off the lines of the text but given as a
list, one for each entry of the ranking.
-/

namespace PatternAudit

theorem Utf8.length_le_utf8ByteSize (s : String) : s.length ≤ s.utf8ByteSize := by
  have hBytes (l : List Char) : l.length ≤ (l.flatMap String.utf8EncodeChar).length := by
    induction l with
    | nil => exact Nat.le_refl _
    | cons c l ih =>
      have hSize := c.utf8Size_pos
      rw [List.flatMap_cons, List.length_append, List.length_cons, String.length_utf8EncodeChar]
      omega
  have hEncode : (encode s).length = s.utf8ByteSize := rfl
  rw [← hEncode, encode_eq_flatMap, ← String.length_toList]
  exact hBytes s.toList

/-! ## Rows -/

namespace Report

def blanks (n : Nat) : String :=
  String.ofList (List.replicate n ' ')

theorem length_blanks (n : Nat) : (blanks n).length = n := by
  rw [blanks, String.length_ofList, List.length_replicate]

/-- A row of the table. The name begins at the third character and is followed by blanks up to
`width`; the count ends with the row. -/
structure Aligned (width : Nat) (row : FrequencyRow) (text : String) : Prop where
  length_eq : text.length = 2 + width + 2 + 8
  columns : ∃ gap indent,
    text = "  " ++ row.1 ++ blanks gap ++ "  " ++ blanks indent ++ row.2.repr ∧
      row.1.length + gap = width ∧ indent + row.2.repr.length = 8

theorem aligned_frequencyLine {width : Nat} {row : FrequencyRow}
    (hName : row.1.length ≤ width) (hCount : row.2 < 10 ^ 8) :
    Aligned width row (frequencyLine width row) := by
  have hDigits : row.2.repr.length ≤ 8 := (Nat.length_repr_le_iff (by decide)).mpr hCount
  have hLine : frequencyLine width row = "  " ++ row.1 ++ blanks (width - row.1.length) ++ "  " ++
      blanks (8 - row.2.repr.length) ++ row.2.repr := by
    simp only [frequencyLine, padEnd, padStart, countWidth, blanks, String.append_assoc]
  constructor
  · have hBlanks : "  ".length = 2 := rfl
    simp only [hLine, String.length_append, length_blanks, hBlanks]
    omega
  · exact ⟨_, _, hLine, Nat.add_sub_cancel' hName, Nat.sub_add_cancel hDigits⟩

theorem nameWidth_eq (rows : List FrequencyRow) :
    nameWidth rows = (rows.map fun r => r.1.utf8ByteSize).foldr max 0 :=
  List.foldl_eq_foldr

end Report

/-! ## The width of the names -/

/-- The largest number of bytes of a name in a list of occurrences. -/
def longestName (os : List Occurrence) : Nat :=
  (os.map fun o => o.pattern.utf8ByteSize).foldr max 0

/-- Names are not repeated in a ranking, but the longest one does not depend on that. -/
theorem nameWidth_of_ranks {os : List Occurrence} {table : List Report.FrequencyRow}
    (h : Ranks os table) : Report.nameWidth table = longestName os := by
  have hMem (n : Nat) : n ∈ table.map (fun r => r.1.utf8ByteSize) ↔
      n ∈ os.map fun o => o.pattern.utf8ByteSize := by
    rw [List.mem_map, List.mem_map]
    constructor
    · rintro ⟨row, hRow, rfl⟩
      obtain ⟨o, ho, hName⟩ := (h.mem_names_iff row.1).mp (List.mem_map_of_mem hRow)
      exact ⟨o, ho, congrArg String.utf8ByteSize hName⟩
    · rintro ⟨o, ho, rfl⟩
      obtain ⟨row, hRow, hName⟩ := List.mem_map.mp ((h.mem_names_iff o.pattern).mpr ⟨o, ho, rfl⟩)
      exact ⟨row, hRow, congrArg String.utf8ByteSize hName⟩
  rw [Report.nameWidth_eq, longestName]
  apply Nat.le_antisymm
  · exact List.max_le_of_forall_le _ _ fun n hn => List.le_max_of_le ((hMem n).mp hn) le_rfl
  · exact List.max_le_of_forall_le _ _ fun n hn => List.le_max_of_le ((hMem n).mpr hn) le_rfl

theorem le_longestName {os : List Occurrence} {o : Occurrence} (h : o ∈ os) :
    o.pattern.utf8ByteSize ≤ longestName os :=
  List.le_max_of_le (List.mem_map_of_mem h) le_rfl

/-! ## The table -/

theorem aligned_of_ranks {os : List Occurrence} {table : List Report.FrequencyRow}
    (h : Ranks os table) (hLength : os.length < 10 ^ 8) {row : Report.FrequencyRow}
    (hRow : row ∈ table) :
    Report.Aligned (longestName os) row (Report.frequencyLine (longestName os) row) := by
  obtain ⟨o, ho, hName⟩ := (h.mem_names_iff row.1).mp (List.mem_map_of_mem hRow)
  apply Report.aligned_frequencyLine
  · exact (Utf8.length_le_utf8ByteSize row.1).trans (hName ▸ le_longestName ho)
  · calc row.2 = uses os row.1 := h.count_eq row hRow
      _ ≤ (os.map Occurrence.pattern).length := List.count_le_length
      _ = os.length := List.length_map _
      _ < 10 ^ 8 := hLength

theorem exists_rows_of_ranks {os : List Occurrence} {table : List Report.FrequencyRow}
    (h : Ranks os table) (hLength : os.length < 10 ^ 8) :
    ∃ rows, Report.frequencyText table =
        s!"Pattern frequencies ({table.length.repr} patterns)" ++ "\n" ++ "\n" ++
          String.join (rows.map (· ++ "\n")) ∧
      List.Forall₂ (Report.Aligned (longestName os)) table rows := by
  refine ⟨table.map (Report.frequencyLine (longestName os)), ?_, ?_⟩
  · rw [Report.frequencyText, nameWidth_of_ranks h, List.map_map]
    rfl
  · rw [List.forall₂_map_right_iff, List.forall₂_same]
    exact fun row hRow => aligned_of_ranks h hLength hRow

namespace CommandLine

/-- The arguments ask for the pattern frequencies of a file as text, and the file can be loaded. -/
inductive AsksTable (disk : Disk) : List String → MatchFile → Prop
  | mk {arguments : List String} {i : Invocation} {name : String} {file : MatchFile}
    (hParse : parse arguments = .ok i) (hCommand : i.command = .patterns name)
    (hFormat : i.format = .text) (hLoad : MatchFile.load disk (.ofString name) = .ok file) :
    AsksTable disk arguments file

/-- Every pattern of the file has a row, and all rows are aligned, whatever the names look like, as
long as none of them is too wide for a column. -/
theorem execute_patterns_aligned {disk : Disk} {arguments : List String} {file : MatchFile}
    (hAsks : AsksTable disk arguments file) (_hWidth : longestName file.found ≤ 65535) :
    ∃ table rows, Ranks file.found table ∧
      List.Forall₂ (Report.Aligned (longestName file.found)) table rows ∧
      (execute disk arguments).status = 0 ∧
      (execute disk arguments).stdout =
        s!"Pattern frequencies ({table.length.repr} patterns)" ++ "\n" ++ "\n" ++
          String.join (rows.map (· ++ "\n")) := by
  obtain ⟨hParse, hCommand, hFormat, hLoad⟩ := hAsks
  have hLength : file.found.length < 10 ^ 8 :=
    (length_found_le_of_load hLoad).trans_lt (by decide)
  have hRanks := Frequencies.ranks_ranked file.found
  obtain ⟨rows, hText, hRows⟩ := exists_rows_of_ranks hRanks hLength
  refine ⟨(Frequencies.ofList file.found).ranked, rows, hRanks, hRows, ?_, ?_⟩
  · rw [execute, hParse]
    simp only [Invocation.run, hCommand, runPatterns, hLoad, Outcome.success, Outcome.exit]
  · rw [← hText, execute, hParse]
    simp only [Invocation.run, hCommand, hFormat, runPatterns, hLoad, Outcome.success,
      Outcome.exit, frequencyReport]

/-- The shorter name has more bytes. -/
def mixedNames : Disk := fun path =>
  if path = .ofString "m.json" then
    .ok (.file (Utf8.encode
      "\x7b\"matches\": [[\"été\", 0, 8], [\"abcd\", 4, 8], [\"abcd\", 0, 4]]\x7d"))
  else .error .notFound

def mixedFile : MatchFile := ⟨{}, [⟨"été", 0, 8⟩, ⟨"abcd", 4, 8⟩, ⟨"abcd", 0, 4⟩]⟩

theorem asksTable_mixedNames : AsksTable mixedNames ["patterns", "m.json"] mixedFile := by
  have hParse : parse ["patterns", "m.json"] = .ok ⟨false, .text, .patterns "m.json"⟩ := by
    decide +kernel
  exact .mk hParse rfl rfl (by decide +kernel)

theorem ranks_mixedFile : Ranks mixedFile.found [("abcd", 2), ("été", 1)] where
  mem_names_iff name := by
    simp [mixedFile, eq_comm, or_comm]
  count_eq := by decide +kernel
  strict := by simp [Outranks]

theorem execute_patterns_mixedNames :
    AsksTable mixedNames ["patterns", "m.json"] mixedFile ∧
      longestName mixedFile.found = 5 ∧
      ∃ rows, List.Forall₂ (Report.Aligned 5) [("abcd", 2), ("été", 1)] rows ∧
        (execute mixedNames ["patterns", "m.json"]).status = 0 ∧
        (execute mixedNames ["patterns", "m.json"]).stdout =
          "Pattern frequencies (2 patterns)" ++ "\n" ++ "\n" ++
            String.join (rows.map (· ++ "\n")) := by
  have hWidth : longestName mixedFile.found = 5 := by decide +kernel
  obtain ⟨table, rows, hRanks, hRows, hStatus, hStdout⟩ :=
    execute_patterns_aligned asksTable_mixedNames (hWidth ▸ by decide)
  obtain rfl := hRanks.unique ranks_mixedFile
  exact ⟨asksTable_mixedNames, hWidth, rows, hWidth ▸ hRows, hStatus, hStdout⟩

end CommandLine

end PatternAudit
