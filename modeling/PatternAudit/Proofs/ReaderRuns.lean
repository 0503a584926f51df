import Mathlib.Data.List.Induction
import Mathlib.Order.Bounds.Defs
import PatternAudit.Proofs.Grammar
import PatternAudit.Proofs.ReaderSteps

/-!
# Runs of the reader

A run feeds the reader some bytes (`Reader.run`); the positions that are counted beside it have no
influence on it (`feed_of_run_ok`). Of every run that does not halt the following is known.

* `Reader.run_listed`: the list of occurrences is opened once, so the number of occurrences never
  falls, and it never exceeds the limit.
* `Reader.exists_brace_of_run`: the reader has finished only after a closing brace with nothing but
  blanks behind it, and stays finished only on blanks.

Reading is such a run, its end and a look at the pattern names (`read_eq_ok_iff`,
`read_eq_unnamed_iff`).
-/

namespace PatternAudit.MatchFile

open Json (Blanks blanks_cons byte isBlank)

namespace Reader

/-- The reader after some more bytes. -/
def run (limit : Nat) (r : Reader) (bytes : List UInt8) : Except Halt Reader :=
  bytes.foldlM (step limit) r

theorem run_cons (limit : Nat) (r : Reader) (b : UInt8) (bytes : List UInt8) :
    run limit r (b :: bytes) = r.step limit b >>= fun r => run limit r bytes := rfl

theorem run_append (limit : Nat) (r : Reader) (xs ys : List UInt8) :
    run limit r (xs ++ ys) = run limit r xs >>= fun r => run limit r ys :=
  List.foldlM_append

/-- The list of occurrences is within the limit, and is not announced when it is already there. -/
structure Listed (limit : Nat) (r : Reader) : Prop where
  count_le : r.draft.count ≤ limit
  awaits : awaitsList r.control → r.draft.found = none

theorem listed_start (limit : Nat) : Listed limit start :=
  ⟨Nat.zero_le _, fun _ => rfl⟩

theorem step_listed {limit : Nat} {r r' : Reader} {b : UInt8} (hr : Listed limit r)
    (h : r.step limit b = .ok r') : Listed limit r' ∧ r.draft.count ≤ r'.draft.count := by
  have hEffect := step_effect limit r b r' h
  have hAwaits : awaitsList r'.control → r'.draft.found = none := by
    intro h'
    rcases hEffect.awaits h' with hNone | ⟨hBefore, hSame⟩
    · exact hNone
    · exact hSame.trans (hr.awaits hBefore)
  rcases hEffect.found with hSame | ⟨hBefore, hOpen⟩ | ⟨o, hBound, hAdd⟩
  · have hCount : r'.draft.count = r.draft.count := congrArg (fun f => (f.getD #[]).size) hSame
    exact ⟨⟨hCount ▸ hr.count_le, hAwaits⟩, Nat.le_of_eq hCount.symm⟩
  · have hCount : r'.draft.count = 0 := congrArg (fun f => (f.getD #[]).size) hOpen
    have hNone : r.draft.count = 0 := congrArg (fun f => (f.getD #[]).size) (hr.awaits hBefore)
    exact ⟨⟨by omega, hAwaits⟩, by omega⟩
  · have hCount : r'.draft.count = r.draft.count + 1 := by
      simp [Draft.count, hAdd]
    exact ⟨⟨by omega, hAwaits⟩, by omega⟩

theorem run_listed {limit : Nat} {r r' : Reader} {bytes : List UInt8} (hr : Listed limit r)
    (h : run limit r bytes = .ok r') : Listed limit r' ∧ r.draft.count ≤ r'.draft.count := by
  induction bytes generalizing r with
  | nil =>
    cases h
    exact ⟨hr, Nat.le_refl _⟩
  | cons b bytes ih =>
    obtain ⟨next, hStep, h⟩ := exists_of_bind_eq_ok h
    obtain ⟨hNext, hLe⟩ := step_listed hr hStep
    obtain ⟨hr', hLe'⟩ := ih hNext h
    exact ⟨hr', Nat.le_trans hLe hLe'⟩

/-! ## The end of a run -/

theorem eq_atGap_of_isFinished {r : Reader} (h : isFinished r.control) :
    r = atGap r.draft .finished := by
  obtain ⟨d, gap | token⟩ := r
  · cases gap <;> first | rfl | exact absurd h Bool.false_ne_true
  · exact absurd h Bool.false_ne_true

/-- A finished reader lets blanks pass and halts on anything else. -/
theorem run_finished (limit : Nat) (d : Draft) (bytes : List UInt8) :
    run limit (atGap d .finished) bytes =
      if Blanks bytes then .ok (atGap d .finished) else defect .trailingCharacters := by
  induction bytes with
  | nil => rfl
  | cons b bytes ih =>
    rw [run_cons]
    by_cases hBlank : isBlank b
    · have hStep : step limit (atGap d .finished) b = .ok (atGap d .finished) := if_pos hBlank
      simp only [hStep, blanks_cons, hBlank, true_and]
      exact ih
    · have hStep : step limit (atGap d .finished) b = defect .trailingCharacters := if_neg hBlank
      simp only [hStep, blanks_cons, hBlank]
      rfl

theorem of_run_finished {limit : Nat} {r r' : Reader} {bytes : List UInt8}
    (hr : isFinished r.control) (h : run limit r bytes = .ok r') :
    Blanks bytes ∧ r' = r := by
  rw [eq_atGap_of_isFinished hr, run_finished] at h
  split_ifs at h with hBlank
  · cases h
    exact ⟨hBlank, (eq_atGap_of_isFinished hr).symm⟩
  · cases h

/-- The reader is finished by nothing but a brace, after which it lets only blanks pass. The
induction is on the bytes from their end. -/
theorem exists_brace_of_run {limit : Nat} {r r' : Reader} {bytes : List UInt8}
    (hr : isFinished r.control = false) (h : run limit r bytes = .ok r')
    (hr' : isFinished r'.control) :
    ∃ body tail, bytes = body ++ byte '\x7d' :: tail ∧ Blanks tail ∧
      run limit r (body ++ [byte '\x7d']) = .ok r' := by
  induction bytes using List.reverseRecOn generalizing r' with
  | nil =>
    cases h
    rw [hr] at hr'
    cases hr'
  | append_singleton bytes b ih =>
    obtain ⟨before, hRun, hStep⟩ := exists_of_bind_eq_ok ((run_append ..).symm.trans h)
    obtain ⟨after, hEffect, hNil⟩ := exists_of_bind_eq_ok hStep
    cases hNil
    rcases (step_effect limit before b _ hEffect).finished hr' with ⟨hBefore, hBlank⟩ | rfl
    · obtain ⟨body, tail, rfl, hTail, hBody⟩ := ih hRun hBefore
      refine ⟨body, tail ++ [b], by simp, ?_, ?_⟩
      · intro c hc
        rcases List.mem_append.mp hc with hc | hc
        · exact hTail c hc
        · rw [List.mem_singleton.mp hc]
          exact hBlank
      · rw [(of_run_finished hBefore hStep).2]
        exact hBody
    · exact ⟨bytes, [], rfl, Json.blanks_nil, h⟩

theorem eq_finished_of_endGap {d : Draft} {gap : Gap} {file : MatchFile}
    (h : endGap d gap = .ok file) : gap = .finished := by
  cases gap <;> first | rfl | cases h

/-- A text may end only where the reader has finished. -/
theorem isFinished_of_finish {limit : Nat} {r : Reader} {file : MatchFile}
    (h : r.finish limit = .ok file) : isFinished r.control := by
  obtain ⟨d, gap | token⟩ := r
  · cases eq_finished_of_endGap h
    rfl
  · cases token with
    | key holder scan => cases h
    | string place scan => cases h
    | word place found left => cases h
    | skip holder scan => cases h
    | number place scan =>
      obtain ⟨⟨d', gap⟩, hClose, hEnd⟩ := exists_of_bind_eq_ok h
      have hStored := closeNumber_stored limit d place scan _ hClose
      cases eq_finished_of_endGap hEnd
      cases hStored.finished

end Reader

/-- The file that a finished draft is. -/
def Draft.file (d : Draft) : MatchFile :=
  ⟨d.run, (d.found.getD #[]).toList⟩

/-! ## Feeding -/

section

variable {limit : Nat} {r r' : Reader} {bytes : List UInt8}

theorem feed_of_run_ok (h : r.run limit bytes = .ok r') (p : Position) :
    feed limit r p bytes = .ok (r', bytes.foldl Position.advance p) := by
  induction bytes generalizing r p with
  | nil =>
    cases h
    rfl
  | cons b bytes ih =>
    obtain ⟨next, hStep, h⟩ := exists_of_bind_eq_ok h
    simp only [feed, hStep]
    exact ih h _

theorem feed_of_run_error {halt : Halt} (h : r.run limit bytes = .error halt) (p : Position) :
    ∃ p', feed limit r p bytes = .error (halt.toError limit p') := by
  induction bytes generalizing r p with
  | nil => cases h
  | cons b bytes ih =>
    rw [Reader.run_cons] at h
    cases hStep : r.step limit b with
    | error halt' =>
      rw [hStep] at h
      cases h
      exact ⟨p.advance b, by simp only [feed, hStep]⟩
    | ok next =>
      rw [hStep] at h
      simp only [feed, hStep]
      exact ih h _

end

/-! ## Reading -/

/-- What the text of a source says, before its pattern names are looked at. -/
def parse (limit : Nat) (source : Source) : Except LoadError MatchFile := do
  let (r, p) ← feed limit .start .start source.bytes
  conclude limit r p source.failure

theorem read_eq_parse_bind (limit : Nat) (source : Source) :
    read limit source = parse limit source >>= fun file =>
      validate file.found >>= fun _ => .ok file := by
  unfold read parse
  cases feed limit .start .start source.bytes with
  | error e => rfl
  | ok x => rfl

/-- The positions at which the pattern name is blank. -/
def unnamedAt (os : List Occurrence) : Set Nat :=
  {i | ∃ o, os[i]? = some o ∧ Text.allBlank o.pattern}

theorem firstUnnamed?_eq_some_iff (os : List Occurrence) (i : Nat) :
    firstUnnamed? os = some i ↔ IsLeast (unnamedAt os) i := by
  unfold firstUnnamed?
  rw [List.findIdx?_eq_some_iff_getElem]
  constructor
  · rintro ⟨hBound, hBlank, hBefore⟩
    refine ⟨⟨os[i], List.getElem?_eq_getElem hBound, hBlank⟩, ?_⟩
    rintro j ⟨o, ho, hj⟩
    obtain ⟨hj', rfl⟩ := List.getElem?_eq_some_iff.mp ho
    by_contra hLt
    exact hBefore j (Nat.not_le.mp hLt) hj
  · rintro ⟨⟨o, ho, hBlank⟩, hLeast⟩
    obtain ⟨hBound, rfl⟩ := List.getElem?_eq_some_iff.mp ho
    refine ⟨hBound, hBlank, ?_⟩
    intro j hj hBlank'
    exact absurd (hLeast ⟨os[j], List.getElem?_eq_getElem _, hBlank'⟩) (Nat.not_le.mpr hj)

theorem firstUnnamed?_eq_none_iff (os : List Occurrence) :
    firstUnnamed? os = none ↔ ∀ o ∈ os, Text.allBlank o.pattern = false :=
  List.findIdx?_eq_none_iff

section

variable {limit : Nat} {source : Source}

theorem parse_of_run_ok {r : Reader} (h : Reader.run limit .start source.bytes = .ok r) :
    ∃ p, parse limit source = conclude limit r p source.failure := by
  refine ⟨source.bytes.foldl Position.advance .start, ?_⟩
  unfold parse
  rw [feed_of_run_ok h]
  rfl

theorem parse_of_run_error {halt : Halt}
    (h : Reader.run limit .start source.bytes = .error halt) :
    ∃ p, parse limit source = .error (halt.toError limit p) := by
  obtain ⟨p, hFeed⟩ := feed_of_run_error h .start
  refine ⟨p, ?_⟩
  unfold parse
  rw [hFeed]
  rfl

/-- A text is a file if the source ends properly and the reader has then finished. -/
theorem parse_eq_ok_iff {file : MatchFile} :
    parse limit source = .ok file ↔
      source.failure = none ∧
        ∃ d, Reader.run limit .start source.bytes = .ok (Reader.atGap d .finished) ∧
          d.file = file := by
  constructor
  · intro h
    cases hRun : Reader.run limit .start source.bytes with
    | error halt =>
      obtain ⟨p, hParse⟩ := parse_of_run_error hRun
      rw [hParse] at h
      cases h
    | ok r =>
      obtain ⟨p, hParse⟩ := parse_of_run_ok hRun
      rw [hParse] at h
      cases hFailure : source.failure with
      | some failure =>
        rw [hFailure] at h
        cases h
      | none =>
        rw [hFailure] at h
        cases hFinish : r.finish limit with
        | error cause =>
          rw [conclude, hFinish] at h
          cases h
        | ok read =>
          have hr := Reader.eq_atGap_of_isFinished (Reader.isFinished_of_finish hFinish)
          rw [hr] at h
          cases h
          exact ⟨rfl, r.draft, congrArg _ hr, rfl⟩
  · rintro ⟨hFailure, d, hRun, rfl⟩
    obtain ⟨p, hParse⟩ := parse_of_run_ok hRun
    rw [hParse, hFailure]
    rfl

/-- Parsing fails for the form of the text or for the limit. -/
theorem parse_error_cases {e : LoadError} (h : parse limit source = .error e) :
    (∃ fault, e = .unreadable fault) ∨ e = .tooMany limit := by
  cases hRun : Reader.run limit .start source.bytes with
  | error halt =>
    obtain ⟨p, hParse⟩ := parse_of_run_error hRun
    rw [hParse] at h
    cases h
    cases halt with
    | fault cause => exact .inl ⟨_, rfl⟩
    | limit => exact .inr rfl
  | ok r =>
    obtain ⟨p, hParse⟩ := parse_of_run_ok hRun
    rw [hParse] at h
    cases hFailure : source.failure with
    | some failure =>
      rw [hFailure] at h
      cases h
      exact .inl ⟨_, rfl⟩
    | none =>
      rw [hFailure] at h
      unfold conclude at h
      cases hFinish : r.finish limit with
      | ok file =>
        rw [hFinish] at h
        cases h
      | error cause =>
        rw [hFinish] at h
        cases h
        exact .inl ⟨_, rfl⟩

theorem read_of_parse_error {e : LoadError} (h : parse limit source = .error e) :
    read limit source = .error e := by
  rw [read_eq_parse_bind, h]
  rfl

theorem read_of_parse_ok {file : MatchFile} (h : parse limit source = .ok file) :
    read limit source =
      match firstUnnamed? file.found with
      | some i => .error (.unnamed i)
      | none => .ok file := by
  rw [read_eq_parse_bind, h]
  change validate file.found >>= _ = _
  unfold validate
  cases firstUnnamed? file.found <;> rfl

/-- A file is read if its text can be parsed and no pattern name in it is blank. -/
theorem read_eq_ok_iff {file : MatchFile} :
    read limit source = .ok file ↔
      parse limit source = .ok file ∧ ∀ o ∈ file.found, Text.allBlank o.pattern = false := by
  cases h : parse limit source with
  | error e => simp [read_of_parse_error h]
  | ok parsed =>
    rw [read_of_parse_ok h]
    cases hUnnamed : firstUnnamed? parsed.found with
    | none =>
      have hNamed := (firstUnnamed?_eq_none_iff _).mp hUnnamed
      constructor
      · intro hRead
        cases hRead
        exact ⟨rfl, hNamed⟩
      · rintro ⟨hParse, _⟩
        exact hParse
    | some i =>
      constructor
      · intro hRead
        cases hRead
      · rintro ⟨hParse, hNamed⟩
        cases hParse
        rw [(firstUnnamed?_eq_none_iff _).mpr hNamed] at hUnnamed
        cases hUnnamed

theorem parse_eq_error_of_read {e : LoadError} (h : read limit source = .error e)
    (hNamed : ∀ i, e ≠ .unnamed i) : parse limit source = .error e := by
  cases hParse : parse limit source with
  | error e' => rw [← h, read_of_parse_error hParse]
  | ok file =>
    rw [read_of_parse_ok hParse] at h
    cases hUnnamed : firstUnnamed? file.found with
    | none =>
      rw [hUnnamed] at h
      cases h
    | some i =>
      rw [hUnnamed] at h
      cases h
      exact absurd rfl (hNamed i)

/-- Of the blank names the first is complained of. -/
theorem read_eq_unnamed_iff {i : Nat} :
    read limit source = .error (.unnamed i) ↔
      ∃ file, parse limit source = .ok file ∧ IsLeast (unnamedAt file.found) i := by
  cases h : parse limit source with
  | error e =>
    rw [read_of_parse_error h]
    constructor
    · intro hRead
      cases hRead
      rcases parse_error_cases h with ⟨fault, hFault⟩ | hLimit
      · cases hFault
      · cases hLimit
    · rintro ⟨file, hParse, _⟩
      cases hParse
  | ok parsed =>
    rw [read_of_parse_ok h]
    simp only [Except.ok.injEq, exists_eq_left', ← firstUnnamed?_eq_some_iff]
    cases firstUnnamed? parsed.found <;> simp

end

end PatternAudit.MatchFile
