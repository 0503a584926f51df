import PatternAudit.Proofs.ReaderRuns

/-!
# Texts that are cut off or go on

The reader has finished nowhere but behind the brace that closes the outermost object. A text that
is cut off before this brace is therefore refused, wherever the cut falls, and a text that goes on
behind it may do so with blanks only.
-/

namespace PatternAudit.MatchFile

open Json (Blanks byte)

variable {limit : Nat} {bytes : List UInt8} {file : MatchFile}

theorem parse_ofBytes_eq_ok_iff :
    parse limit (.ofBytes bytes) = .ok file ↔
      ∃ d, Reader.run limit .start bytes = .ok (Reader.atGap d .finished) ∧ d.file = file := by
  rw [parse_eq_ok_iff]
  exact and_iff_right rfl

theorem exists_unreadable_of_fault {cause : Cause}
    (hRun : Reader.run limit .start bytes = .error (.fault cause)) :
    ∃ fault, read limit (.ofBytes bytes) = .error (.unreadable fault) := by
  obtain ⟨p, hParse⟩ := @parse_of_run_error limit (.ofBytes bytes) _ hRun
  exact ⟨_, read_of_parse_error hParse⟩

/-- Where the reader has not finished, the end of the bytes is a fault. -/
theorem exists_unreadable_of_unfinished {r : Reader}
    (hRun : Reader.run limit .start bytes = .ok r) (hr : Reader.isFinished r.control = false) :
    ∃ fault, read limit (.ofBytes bytes) = .error (.unreadable fault) := by
  obtain ⟨p, hParse⟩ := @parse_of_run_ok limit (.ofBytes bytes) _ hRun
  cases hFinish : r.finish limit with
  | ok file =>
    rw [Reader.isFinished_of_finish hFinish] at hr
    cases hr
  | error cause =>
    refine ⟨.shownAt cause p, read_of_parse_error ?_⟩
    rw [hParse]
    simp only [conclude, Source.ofBytes, hFinish, Except.mapError]

/-- No part of the bytes before the closing brace finishes the reader, for it would not let the
brace pass. -/
theorem unfinished_of_prefix {body tail cut : List UInt8} {r : Reader}
    (hRun : Reader.run limit .start (body ++ byte '\x7d' :: tail) = .ok r) (hCut : cut <+: body) :
    ∃ r', Reader.run limit .start cut = .ok r' ∧ Reader.isFinished r'.control = false := by
  obtain ⟨left, rfl⟩ := hCut
  rw [List.append_assoc, Reader.run_append] at hRun
  obtain ⟨r', hCut, hLeft⟩ := exists_of_bind_eq_ok hRun
  refine ⟨r', hCut, ?_⟩
  by_contra hFinished
  have hBlank := (Reader.of_run_finished (by simpa using hFinished) hLeft).1
  exact absurd (hBlank (byte '\x7d') (by simp)) (by decide)

/-- A text that is read ends with a brace and blanks. It is refused if it is cut off anywhere before
that brace, so a part of it never passes for a shorter file. Behind the brace only blanks may be
added, and these change nothing. -/
theorem read_cut_or_extended (h : read limit (.ofBytes bytes) = .ok file) :
    (∃ body tail, bytes = body ++ byte '\x7d' :: tail ∧ Blanks tail ∧
      read limit (.ofBytes (body ++ [byte '\x7d'])) = .ok file ∧
      ∀ cut, cut <+: body → ∃ fault, read limit (.ofBytes cut) = .error (.unreadable fault)) ∧
    ∀ more, if Blanks more then read limit (.ofBytes (bytes ++ more)) = .ok file
      else ∃ fault, read limit (.ofBytes (bytes ++ more)) = .error (.unreadable fault) := by
  obtain ⟨hParse, hNamed⟩ := read_eq_ok_iff.mp h
  obtain ⟨d, hRun, hFile⟩ := parse_ofBytes_eq_ok_iff.mp hParse
  refine ⟨?_, ?_⟩
  · obtain ⟨body, tail, rfl, hTail, hBody⟩ := Reader.exists_brace_of_run rfl hRun rfl
    refine ⟨body, tail, rfl, hTail, ?_, ?_⟩
    · exact read_eq_ok_iff.mpr ⟨parse_ofBytes_eq_ok_iff.mpr ⟨d, hBody, hFile⟩, hNamed⟩
    · intro cut hCut
      obtain ⟨r, hr, hUnfinished⟩ := unfinished_of_prefix hRun hCut
      exact exists_unreadable_of_unfinished hr hUnfinished
  · intro more
    have hMore : Reader.run limit .start (bytes ++ more) =
        if Blanks more then .ok (Reader.atGap d .finished)
          else defect .trailingCharacters := by
      rw [Reader.run_append, hRun]
      exact Reader.run_finished limit d more
    split_ifs with hBlank
    · rw [if_pos hBlank] at hMore
      exact read_eq_ok_iff.mpr ⟨parse_ofBytes_eq_ok_iff.mpr ⟨d, hMore, hFile⟩, hNamed⟩
    · rw [if_neg hBlank] at hMore
      exact exists_unreadable_of_fault hMore

/-- One occurrence, with a time behind it. -/
def shortText : List UInt8 :=
  Utf8.encode "\x7b\"matches\": [[\"p\", 1, 2]], \"realTime\": 1.5\x7d"

theorem read_shortText_cut_or_extended :
    read 1 (.ofBytes shortText) = .ok ⟨{realTime := 1.5}, [⟨"p", 1, 2⟩]⟩ ∧
      (∃ body tail, shortText = body ++ byte '\x7d' :: tail ∧ Blanks tail ∧
        read 1 (.ofBytes (body ++ [byte '\x7d'])) = .ok ⟨{realTime := 1.5}, [⟨"p", 1, 2⟩]⟩ ∧
        ∀ cut, cut <+: body → ∃ fault, read 1 (.ofBytes cut) = .error (.unreadable fault)) ∧
      read 1 (.ofBytes (shortText ++ [0x20, 0x0a])) =
        .ok ⟨{realTime := 1.5}, [⟨"p", 1, 2⟩]⟩ ∧
      ∃ fault, read 1 (.ofBytes (shortText ++ [0x20, 0x5d])) = .error (.unreadable fault) := by
  have hRead : read 1 (.ofBytes shortText) = .ok ⟨{realTime := 1.5}, [⟨"p", 1, 2⟩]⟩ := by
    decide +kernel
  have hBlank := (read_cut_or_extended hRead).2 [0x20, 0x0a]
  have hMore := (read_cut_or_extended hRead).2 [0x20, 0x5d]
  rw [if_pos (by decide)] at hBlank
  rw [if_neg (by decide)] at hMore
  exact ⟨hRead, (read_cut_or_extended hRead).1, hBlank, hMore⟩

end PatternAudit.MatchFile
