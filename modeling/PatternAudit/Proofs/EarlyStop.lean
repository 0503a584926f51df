import PatternAudit.Proofs.Limit
import PatternAudit.Proofs.Rendering

/-!
# The limit stops the reader at once

When there is one occurrence too many, the reader halts on the bracket that closes it. What stands
behind that bracket is never looked at, so it may be anything, and before it there is no reason to
complain of the number.

* `Reader.completes_of_step`: the limit is the reason of a halt only on a closing bracket, where an
  occurrence is complete and all that can be done with it is to add it.
* `endsElement_of_step`: with a higher limit this occurrence is added, so the text up to the bracket
  can go on with further occurrences or be brought to an end. In this sense the bracket closes an
  element of the list (`EndsElement`).
* `run_of_endsElement`: conversely, no text gets past such a bracket with more elements than the
  limit. Closing the list and the file would not help, for that adds no occurrence.
* `read_eq_tooMany_iff`: reading complains of the number exactly if the reader halts for the limit.
-/

namespace PatternAudit.MatchFile

open Json

namespace Reader

variable {limit limit' : Nat} {r r' : Reader} {d : Draft} {b : UInt8} {halt : Halt}

/-! ## The byte on which a run halts -/

theorem exists_step_of_run_error {bytes : List UInt8} (h : run limit r bytes = .error halt) :
    ∃ front b rest r', bytes = front ++ b :: rest ∧ run limit r front = .ok r' ∧
      r'.step limit b = .error halt := by
  induction bytes generalizing r with
  | nil => cases h
  | cons b bytes ih =>
    cases hStep : r.step limit b with
    | error halt' =>
      rw [run_cons, hStep] at h
      cases h
      exact ⟨[], b, bytes, r, rfl, rfl, hStep⟩
    | ok next =>
      rw [run_step hStep] at h
      obtain ⟨front, c, rest, r', rfl, hFront, hHalt⟩ := ih h
      exact ⟨b :: front, c, rest, r', rfl, (run_step hStep).trans hFront, hHalt⟩

theorem run_append_of_ok {front : List UInt8} (hFront : run limit r front = .ok r')
    (more : List UInt8) : run limit r (front ++ more) = run limit r' more := by
  rw [run_append, hFront]
  rfl

/-- Nothing behind the byte on which a run halts is read. -/
theorem run_of_step_error {front : List UInt8} (hFront : run limit r front = .ok r')
    (hHalt : r'.step limit b = .error halt) (more : List UInt8) :
    run limit r (front ++ b :: more) = .error halt := by
  rw [run_append_of_ok hFront, run_cons, hHalt]
  rfl

theorem run_singleton (limit : Nat) (r : Reader) (b : UInt8) :
    run limit r [b] = r.step limit b := by
  rw [run_cons]
  cases r.step limit b <;> rfl

/-! ## Readers with a higher limit -/

theorem step_of_higher_limit (hLe : limit ≤ limit') (h : r.step limit b = .ok r') :
    r.step limit' b = .ok r' := by
  rcases step_narrows hLe r b with ⟨hHalt, _⟩ | hSame
  · rw [h] at hHalt
    cases hHalt
  · rw [h] at hSame
    cases hStep : r.step limit' b with
    | error halt =>
      rw [hStep] at hSame
      cases hSame
    | ok next =>
      rw [hStep] at hSame
      exact hSame.symm

theorem run_of_higher_limit (hLe : limit ≤ limit') {bytes : List UInt8}
    (h : run limit r bytes = .ok r') : run limit' r bytes = .ok r' := by
  induction bytes generalizing r with
  | nil => exact h
  | cons b bytes ih =>
    obtain ⟨next, hStep, h⟩ := exists_of_bind_eq_ok h
    exact (run_step (step_of_higher_limit hLe hStep)).trans (ih h)

/-- A run that goes through goes through under a lower limit, unless it halts for that limit. -/
theorem run_of_lower_limit (hLe : limit ≤ limit') {bytes : List UInt8}
    (h : run limit' r bytes = .ok r') :
    run limit r bytes = .error .limit ∨ run limit r bytes = .ok r' := by
  induction bytes generalizing r with
  | nil => exact .inr h
  | cons b bytes ih =>
    obtain ⟨next, hStep, h⟩ := exists_of_bind_eq_ok h
    rcases step_narrows hLe r b with ⟨hHalt, _⟩ | hSame
    · rw [run_cons, hHalt]
      exact .inl rfl
    · rw [hStep] at hSame
      rw [run_step hSame]
      exact ih h

/-! ## Where the limit matters -/

theorem orDefect_ne_limit {α : Type} (x : Except Defect α) : orDefect x ≠ .error .limit := by
  cases x <;> exact nofun

theorem orFault_ne_limit {α : Type} (x : Except Cause α) : orFault x ≠ .error .limit := by
  cases x <;> exact nofun

theorem takeOccurrence_ne_limit (fields : Fields) : takeOccurrence fields ≠ .error .limit := by
  unfold takeOccurrence
  split <;> exact nofun

/-- `b` is a bracket that closes the occurrence `o`, whose fields are in `d`. Under every limit the
step on it is to add that occurrence. -/
structure Completes (d : Draft) (b : UInt8) (o : Occurrence)
    (step : (limit : Nat) → Except Halt Reader) : Prop where
  bracket : b = byte ']' ∨ b = byte '\x7d'
  fields : takeOccurrence d.fields = .ok o
  step_eq : ∀ limit, step limit = addOccurrence limit d

theorem completes_of_addOccurrence {step : (limit : Nat) → Except Halt Reader}
    (hBracket : b = byte ']' ∨ b = byte '\x7d')
    (hStep : ∀ limit, step limit = addOccurrence limit d)
    (h : step limit = .error .limit) : limit ≤ d.count ∧ ∃ o, Completes d b o step := by
  rw [hStep, addOccurrence_eq] at h
  obtain ⟨o, hTake, h⟩ := exists_of_bind_eq_error (takeOccurrence_ne_limit d.fields) h
  split_ifs at h with hFull
  exact ⟨hFull, o, hBracket, hTake, hStep⟩

theorem openValue_ne_limit (place : Place) : openValue limit d place b ≠ .error .limit := by
  unfold openValue
  split_ifs
  · exact nofun
  · exact nofun
  · split <;> exact nofun
  · split <;> exact nofun
  · exact nofun
  · exact nofun
  · exact nofun
  · exact nofun

theorem completes_of_closeObject {step : (limit : Nat) → Except Halt Reader} {holder : Holder}
    (hBrace : b = byte '\x7d') (hStep : ∀ limit, step limit = closeObject limit d holder)
    (h : step limit = .error .limit) : limit ≤ d.count ∧ ∃ o, Completes d b o step := by
  cases holder with
  | file =>
    rw [hStep, closeObject] at h
    split at h <;> cases h
  | occurrence => exact completes_of_addOccurrence (.inr hBrace) hStep h

theorem completes_of_stepGap {gap : Gap} (h : stepGap limit d gap b = .error .limit) :
    limit ≤ d.count ∧ ∃ o, Completes d b o fun limit => stepGap limit d gap b := by
  cases gap with
  | value place => exact absurd h (openValue_ne_limit place)
  | firstMember holder =>
    dsimp only [stepGap] at h ⊢
    split_ifs at h ⊢ with hQuote hBrace
    · exact completes_of_closeObject hBrace (fun _ => rfl) h
    · cases h
  | nextMember holder =>
    dsimp only [stepGap] at h
    split_ifs at h <;> cases h
  | colon holder place =>
    dsimp only [stepGap] at h
    split_ifs at h
    · cases place <;> cases h
    · cases h
  | repeated name => cases h
  | memberEnd holder =>
    dsimp only [stepGap] at h ⊢
    split_ifs at h ⊢ with hComma hBrace
    · exact completes_of_closeObject hBrace (fun _ => rfl) h
    · cases h
  | firstOccurrence =>
    dsimp only [stepGap] at h
    split_ifs at h
    exact absurd h (openValue_ne_limit _)
  | nextOccurrence =>
    dsimp only [stepGap] at h
    split_ifs at h
    · cases h
    · exact absurd h (openValue_ne_limit _)
  | occurrenceEnd =>
    dsimp only [stepGap] at h
    split_ifs at h
    cases h
  | firstElement =>
    dsimp only [stepGap] at h
    split_ifs at h
    · cases h
    · exact absurd h (openValue_ne_limit _)
  | nextElement field =>
    dsimp only [stepGap] at h
    split_ifs at h
    · cases h
    · exact absurd h (openValue_ne_limit _)
  | elementEnd field =>
    dsimp only [stepGap] at h ⊢
    cases field with
    | stop =>
      dsimp only [afterElement] at h ⊢
      split_ifs at h ⊢ with hComma hBracket
      · exact completes_of_addOccurrence (.inl hBracket) (fun _ => rfl) h
      · cases h
    | _ =>
      dsimp only [afterElement] at h
      split_ifs at h <;> cases h
  | surplus =>
    dsimp only [stepGap] at h
    split_ifs at h <;> cases h
  | finished => cases h

theorem completes_of_stepBetween {gap : Gap} (h : stepBetween limit d gap b = .error .limit) :
    limit ≤ d.count ∧ ∃ o, Completes d b o fun limit => stepBetween limit d gap b := by
  unfold stepBetween at h ⊢
  split_ifs at h ⊢
  exact completes_of_stepGap h

/-! ### Inside a token -/

/-- A number that has been put in its place is put there under every limit. -/
theorem closeNumber_of_ok {place : Place} {scan : NumberScan} {x : Draft × Gap}
    (h : orFault (closeNumber limit d place scan) = .ok x) (limit' : Nat) :
    orFault (closeNumber limit' d place scan) = .ok x := by
  rw [← orFault_withLimit (@closeNumber_withLimit limit' limit d place scan), h]
  rfl

/-- The end of a token may be noticed on the bracket behind it, which is then met between two
tokens. -/
theorem completes_of_stepInside {token : Token} (h : stepInside limit d token b = .error .limit) :
    ∃ d' o, d'.found = d.found ∧ limit ≤ d'.count ∧
      Completes d' b o fun limit => stepInside limit d token b := by
  cases token with
  | key holder scan =>
    obtain ⟨outcome, _, h⟩ := exists_of_bind_eq_error (orDefect_ne_limit _) h
    cases outcome with
    | more scan => cases h
    | closed bytes =>
      obtain ⟨key, _, h⟩ := exists_of_bind_eq_error (orDefect_ne_limit _) h
      cases h
  | string place scan =>
    obtain ⟨outcome, _, h⟩ := exists_of_bind_eq_error (orDefect_ne_limit _) h
    cases outcome with
    | more scan => cases h
    | closed bytes =>
      obtain ⟨s, _, h⟩ := exists_of_bind_eq_error (orDefect_ne_limit _) h
      obtain ⟨x, _, h⟩ := exists_of_bind_eq_error (orFault_ne_limit _) h
      cases h
  | number place scan =>
    obtain ⟨next, hNext, h⟩ := exists_of_bind_eq_error (orDefect_ne_limit _) h
    cases next with
    | some scan => cases h
    | none =>
      obtain ⟨⟨d', gap⟩, hClose, h⟩ := exists_of_bind_eq_error (orFault_ne_limit _) h
      have hStored := ok_of_orFault (closeNumber_stored limit d place scan) _ hClose
      obtain ⟨hFull, o, hBracket, hFields, hStep⟩ := completes_of_stepBetween h
      refine ⟨d', o, hStored.found, hFull, hBracket, hFields, ?_⟩
      intro limit'
      rw [← hStep limit']
      exact (bind_of_eq_ok hNext).trans (bind_of_eq_ok (closeNumber_of_ok hClose limit'))
  | word place found left =>
    cases left with
    | nil => cases h
    | cons expected left =>
      dsimp only [stepInside] at h
      split_ifs at h <;> cases h
  | skip holder scan =>
    obtain ⟨outcome, hOutcome, h⟩ := exists_of_bind_eq_error (orDefect_ne_limit _) h
    cases outcome with
    | more scan => cases h
    | ended => cases h
    | endedBefore =>
      obtain ⟨hFull, o, hBracket, hFields, hStep⟩ := completes_of_stepBetween h
      refine ⟨d, o, rfl, hFull, hBracket, hFields, ?_⟩
      intro limit'
      rw [← hStep limit']
      exact bind_of_eq_ok hOutcome

theorem completes_of_step (h : r.step limit b = .error .limit) :
    ∃ d o, d.found = r.draft.found ∧ limit ≤ d.count ∧
      Completes d b o fun limit => r.step limit b := by
  obtain ⟨d, gap | token⟩ := r
  · obtain ⟨hFull, o, hCompletes⟩ := completes_of_stepBetween h
    exact ⟨d, o, rfl, hFull, hCompletes⟩
  · exact completes_of_stepInside h

/-- Behind such a bracket the reader is in the list, wherever it was before. -/
theorem Completes.eq_occurrenceEnd {o : Occurrence} {step : (limit : Nat) → Except Halt Reader}
    (h : Completes d b o step) (hStep : step limit = .ok r) :
    r = atGap (withOccurrence d o) .occurrenceEnd := by
  rw [h.step_eq, addOccurrence_eq, bind_of_eq_ok h.fields] at hStep
  split_ifs at hStep
  cases hStep
  rfl

/-- The brackets that close the list and the file do not close an occurrence, so it is not on them
that a reader halts for the limit. -/
theorem run_closing_ne_limit (hLe : limit ≤ limit')
    (h : run limit' r [byte ']', byte '\x7d'] = .ok (atGap d .finished)) :
    run limit r [byte ']', byte '\x7d'] ≠ .error .limit := by
  intro hHalt
  obtain ⟨inList, hList, h⟩ := exists_of_bind_eq_ok h
  obtain ⟨_, hFile, hNil⟩ := exists_of_bind_eq_ok h
  cases hNil
  cases hStep : r.step limit (byte ']') with
  | error halt =>
    rw [run_cons, hStep] at hHalt
    cases hHalt
    obtain ⟨_, _, _, _, hCompletes⟩ := completes_of_step hStep
    rw [hCompletes.eq_occurrenceEnd hList] at hFile
    cases hFile
  | ok inList' =>
    rw [step_of_higher_limit hLe hStep] at hList
    cases hList
    rw [run_step hStep, run_singleton] at hHalt
    obtain ⟨_, _, _, _, hCompletes⟩ := completes_of_step hHalt
    cases hCompletes.eq_occurrenceEnd hFile

/-! ## Behind an element of the list -/

theorem run_more_occurrences {done : Array Occurrence} {more : List Occurrence}
    {u rest : List UInt8} (hFound : d.found = some done) (hFields : d.fields = {})
    (hLimit : done.size + more.length ≤ limit)
    (h : Separated (fun o => Padded (OccurrenceText o)) more u) (hRest : Delimited rest) :
    ∃ d', d'.run = d.run ∧ d'.found = some (done ++ more.toArray) ∧
      run limit (atGap d .occurrenceEnd) (byte ',' :: (u ++ rest)) =
        run limit (atGap d' .occurrenceEnd) rest := by
  have hComma (d : Draft) : (atGap d .occurrenceEnd).step limit (byte ',') =
      .ok (atGap d .nextOccurrence) := rfl
  have hInv : Lists (done.toList ++ more) d d more := ⟨rfl, hFields, done, hFound, rfl⟩
  have hLength : (done.toList ++ more).length ≤ limit := by simpa using hLimit
  obtain ⟨d', ⟨hRun, _, done', hFound', hAll⟩, hReader⟩ :=
    run_separated (fun hGap (hInv : Lists (done.toList ++ more) d _ (_ :: _)) h _ =>
      run_listed_occurrence hLength hGap hInv h) hComma h (.inr rfl) hInv hRest
  have hDone : done' = done ++ more.toArray := by
    rw [← Array.toList_inj]
    simpa using hAll
  refine ⟨d', hRun, hDone ▸ hFound', ?_⟩
  rw [run_step (hComma d), hReader]

/-- Behind an element the list and the file may be closed. -/
theorem parse_of_run_occurrenceEnd {done : Array Occurrence} {t : List UInt8}
    (hFound : d.found = some done)
    (hRun : run limit .start t = run limit (atGap d .occurrenceEnd) [byte ']', byte '\x7d']) :
    parse limit (.ofBytes t) = .ok ⟨d.run, done.toList⟩ := by
  have hList : (atGap d .occurrenceEnd).step limit (byte ']') = .ok (atGap d (.memberEnd .file)) :=
    rfl
  have hFile : (atGap d (.memberEnd .file)).step limit (byte '\x7d') =
      .ok (atGap d .finished) := by
    change closeObject limit d .file = _
    simp only [closeObject, hFound]
  refine parse_eq_ok_iff.mpr ⟨rfl, d, ?_, ?_⟩
  · calc run limit .start t
        = run limit (atGap d .occurrenceEnd) [byte ']', byte '\x7d'] := hRun
      _ = run limit (atGap d (.memberEnd .file)) [byte '\x7d'] := run_step hList
      _ = run limit (atGap d .finished) [] := run_step hFile
  · simp only [Draft.file, hFound, Option.getD_some]

end Reader

/-- `t` ends with the bracket that closes an element of the list of occurrences, and `os` are the
elements up to this one: behind `t` the list may be closed, which makes a file with the occurrences
`os`, or it may go on with a comma and the text of further elements. -/
structure EndsElement (os : List Occurrence) (t : List UInt8) : Prop where
  bracket : ∃ front b, t = front ++ [b] ∧ (b = byte ']' ∨ b = byte '\x7d')
  goesOn : ∃ run,
    (∀ limit, os.length ≤ limit →
      parse limit (.ofBytes (t ++ [byte ']', byte '\x7d'])) = .ok ⟨run, os⟩) ∧
    ∀ more u limit, Separated (fun o => Padded (OccurrenceText o)) more u →
      os.length + more.length ≤ limit →
      parse limit (.ofBytes (t ++ byte ',' :: (u ++ [byte ']', byte '\x7d']))) =
        .ok ⟨run, os ++ more⟩

theorem endsElement_of_run {d : Draft} {done : Array Occurrence} {front : List UInt8} {b : UInt8}
    (hFound : d.found = some done) (hFields : d.fields = {})
    (hBracket : b = byte ']' ∨ b = byte '\x7d')
    (hRun : ∀ limit, done.size ≤ limit →
      Reader.run limit .start (front ++ [b]) = .ok (.atGap d .occurrenceEnd)) :
    EndsElement done.toList (front ++ [b]) := by
  have hBehind (limit : Nat) (hLimit : done.size ≤ limit) (rest : List UInt8) :
      Reader.run limit .start (front ++ [b] ++ rest) =
        Reader.run limit (.atGap d .occurrenceEnd) rest :=
    Reader.run_append_of_ok (hRun limit hLimit) rest
  refine ⟨⟨front, b, rfl, hBracket⟩, d.run, ?_, ?_⟩
  · intro limit hLimit
    exact Reader.parse_of_run_occurrenceEnd hFound (hBehind limit (by simpa using hLimit) _)
  · intro more u limit hMore hLimit
    have hClosing : Delimited [byte ']', byte '\x7d'] := Reader.delimited_cons rfl
    rw [Array.length_toList] at hLimit
    obtain ⟨d', hInfo, hFound', hReader⟩ :=
      Reader.run_more_occurrences hFound hFields hLimit hMore hClosing
    have hParse := Reader.parse_of_run_occurrenceEnd hFound'
      ((hBehind limit (by omega) _).trans hReader)
    rw [hParse, hInfo]
    simp

/-! ## One occurrence too many -/

theorem conclude_ne_tooMany (limit n : Nat) (r : Reader) (p : Position)
    (failure : Option SourceFailure) : conclude limit r p failure ≠ .error (.tooMany n) := by
  cases failure with
  | none =>
    unfold conclude
    cases r.finish limit <;> exact nofun
  | some failure => exact nofun

/-- Reading complains of the number of occurrences if the reader halts for it, and in no other
case. How the source ends has no influence. -/
theorem read_eq_tooMany_iff {limit n : Nat} {source : Source} :
    read limit source = .error (.tooMany n) ↔
      n = limit ∧ Reader.run limit .start source.bytes = .error .limit := by
  constructor
  · intro hRead
    have hParse := parse_eq_error_of_read hRead nofun
    cases hRun : Reader.run limit .start source.bytes with
    | error halt =>
      obtain ⟨p, hHalt⟩ := parse_of_run_error hRun
      rw [hHalt] at hParse
      cases halt with
      | fault cause => cases hParse
      | limit =>
        cases hParse
        exact ⟨rfl, rfl⟩
    | ok r =>
      obtain ⟨p, hEnd⟩ := parse_of_run_ok hRun
      rw [hEnd] at hParse
      exact absurd hParse (conclude_ne_tooMany limit n r p source.failure)
  · rintro ⟨rfl, hRun⟩
    obtain ⟨p, hParse⟩ := parse_of_run_error hRun
    exact read_of_parse_error hParse

/-- The bracket on which the reader halts for the limit closes the first element beyond it. -/
theorem endsElement_of_step {limit : Nat} {front : List UInt8} {b : UInt8} {r : Reader}
    (hFront : Reader.run limit .start front = .ok r) (hHalt : r.step limit b = .error .limit) :
    ∃ os, os.length = limit + 1 ∧ EndsElement os (front ++ [b]) := by
  obtain ⟨d, o, hFound, hFull, hBracket, hFields, hStep⟩ := Reader.completes_of_step hHalt
  have hCount : d.count = r.draft.count := congrArg (fun found => (found.getD #[]).size) hFound
  have hListed := (Reader.run_listed (Reader.listed_start limit) hFront).1.count_le
  have hSize : ((d.found.getD #[]).push o).size = limit + 1 := by
    have hMore : ((d.found.getD #[]).push o).size = d.count + 1 := Reader.count_withOccurrence d o
    omega
  refine ⟨((d.found.getD #[]).push o).toList, by rw [Array.length_toList, hSize], ?_⟩
  refine endsElement_of_run (d := Reader.withOccurrence d o) rfl rfl hBracket ?_
  intro limit' hLimit
  -- A higher limit takes the same way to the bracket and has room for the occurrence behind it.
  have hFront' := Reader.run_of_higher_limit (Nat.le_of_succ_le (hSize ▸ hLimit)) hFront
  have hRoom : ¬ limit' ≤ d.count := by omega
  rw [Reader.run_append_of_ok hFront', Reader.run_singleton, hStep limit', Reader.addOccurrence_eq,
    bind_of_eq_ok hFields, if_neg hRoom]

/-- The reader halts for every limit below the number of elements that have been closed. -/
theorem run_of_endsElement {limit : Nat} {os : List Occurrence} {stop : List UInt8}
    (h : EndsElement os stop) (hLimit : limit < os.length) :
    Reader.run limit .start stop = .error .limit := by
  obtain ⟨info, hClosed, _⟩ := h.goesOn
  obtain ⟨_, d, hRun, hFile⟩ := parse_eq_ok_iff.mp (hClosed os.length (Nat.le_refl _))
  obtain ⟨r, hStop, hClosing⟩ := exists_of_bind_eq_ok ((Reader.run_append ..).symm.trans hRun)
  rcases Reader.run_of_lower_limit hLimit.le hStop with hHalt | hStop'
  · exact hHalt
  -- Otherwise the lower limit would not be exceeded by the whole file.
  · rcases Reader.run_of_lower_limit hLimit.le hClosing with hHalt | hClosing'
    · exact absurd hHalt (Reader.run_closing_ne_limit hLimit.le hClosing)
    · have hWhole : Reader.run limit .start (stop ++ [byte ']', byte '\x7d']) =
          .ok (.atGap d .finished) :=
        (Reader.run_append_of_ok hStop' _).trans hClosing'
      have hCount : d.count = os.length :=
        Array.length_toList.symm.trans (congrArg (fun file => file.found.length) hFile)
      have hFew : d.count ≤ limit :=
        (Reader.run_listed (Reader.listed_start limit) hWhole).1.count_le
      omega

/-- A proper part of the bytes up to the bracket ends where the reader goes on. -/
theorem ne_tooMany_of_prefix {limit : Nat} {front cut : List UInt8} {b : UInt8} {r : Reader}
    (hFront : Reader.run limit .start front = .ok r) (hCut : cut <+: front ++ [b])
    (hProper : cut ≠ front ++ [b]) (failure : Option SourceFailure) (n : Nat) :
    read limit ⟨cut, failure⟩ ≠ .error (.tooMany n) := by
  intro hRead
  obtain ⟨_, hHalt⟩ := read_eq_tooMany_iff.mp hRead
  obtain ⟨left, rfl⟩ : cut <+: front := by
    rcases List.prefix_concat_iff.mp hCut with hEq | hPrefix
    · exact absurd hEq hProper
    · exact hPrefix
  rw [Reader.run_append] at hFront
  obtain ⟨r', hCut', _⟩ := exists_of_bind_eq_ok hFront
  rw [hCut'] at hHalt
  cases hHalt

/-- That there are too many occurrences is settled by the bracket that closes the first one beyond
the limit. Nothing behind that bracket is read, and nothing before it gives the complaint. Every
text with such a bracket is complained of. -/
theorem read_tooMany_early (limit : Nat) (source : Source) :
    (∀ n, read limit source = .error (.tooMany n) →
      ∃ stop os, stop <+: source.bytes ∧ os.length = limit + 1 ∧ EndsElement os stop ∧
        (∀ more failure, read limit ⟨stop ++ more, failure⟩ = .error (.tooMany n)) ∧
        ∀ cut, cut <+: stop → cut ≠ stop →
          ∀ failure m, read limit ⟨cut, failure⟩ ≠ .error (.tooMany m)) ∧
    ∀ stop os, stop <+: source.bytes → os.length = limit + 1 → EndsElement os stop →
      read limit source = .error (.tooMany limit) := by
  refine ⟨?_, ?_⟩
  · intro n h
    obtain ⟨rfl, hRun⟩ := read_eq_tooMany_iff.mp h
    obtain ⟨front, b, rest, r, hBytes, hFront, hHalt⟩ := Reader.exists_step_of_run_error hRun
    obtain ⟨os, hLength, hElement⟩ := endsElement_of_step hFront hHalt
    refine ⟨front ++ [b], os, ?_, hLength, hElement, ?_, ?_⟩
    · rw [hBytes]
      exact ⟨rest, by simp⟩
    · intro more failure
      refine read_eq_tooMany_iff.mpr ⟨rfl, ?_⟩
      rw [List.append_assoc]
      exact Reader.run_of_step_error hFront hHalt more
    · intro cut hCut hProper failure m
      exact ne_tooMany_of_prefix hFront hCut hProper failure m
  · rintro stop os ⟨rest, hBytes⟩ hLength hElement
    have hHalt : Reader.run limit .start stop = .error .limit :=
      run_of_endsElement hElement (by omega)
    refine read_eq_tooMany_iff.mpr ⟨rfl, ?_⟩
    rw [← hBytes, Reader.run_append, hHalt]
    rfl

instance decidableEqTooMany {α : Type} (x : Except LoadError α) (n : Nat) :
    Decidable (x = .error (.tooMany n)) :=
  match x with
  | .error (.tooMany m) => decidable_of_iff (m = n) (by simp)
  | .error (.unopened _) => isFalse nofun
  | .error (.unreadable _) => isFalse nofun
  | .error (.unnamed _) => isFalse nofun
  | .ok _ => isFalse nofun

/-- Three occurrences, and a fourth one that cannot be read. -/
def overfullText : List UInt8 :=
  Utf8.encode ("\x7b\"matches\": [[\"a\", 0, 1], \x7b\"startEA\": 0, \"endEA\": 2, " ++
    "\"patternName\": \"b\"\x7d, [\"c\", 0, 3 ], \x7b\"startEA\": \"not a number\"\x7d]\x7d")

theorem read_overfullText :
    (read 4 (.ofBytes overfullText)).isOk = false ∧
      read 2 (.ofBytes overfullText) = .error (.tooMany 2) ∧
      ∃ stop os, stop <+: overfullText ∧ os.length = 3 ∧ EndsElement os stop ∧
        (∀ more failure, read 2 ⟨stop ++ more, failure⟩ = .error (.tooMany 2)) ∧
        ∀ cut, cut <+: stop → cut ≠ stop →
          ∀ failure m, read 2 ⟨cut, failure⟩ ≠ .error (.tooMany m) := by
  have hRead : read 2 (.ofBytes overfullText) = .error (.tooMany 2) := by decide +kernel
  exact ⟨by decide +kernel, hRead, (read_tooMany_early 2 _).1 2 hRead⟩

end PatternAudit.MatchFile
