import PatternAudit.Proofs.ReaderRuns

/-!
# What the limit changes

The limit on the number of occurrences is looked at in two places: where an occurrence is added, and
in the text of a complaint about what stands in place of their list. Readers with two limits
therefore take the same steps until the lower limit is exceeded.

* `Reader.step_narrows` compares one step under two limits, function by function; `feed_narrows`
  carries this over to all bytes.
* `read_of_lower_limit` tells from the result under the higher limit what the lower one gives.
-/

namespace PatternAudit.MatchFile

open Json (byte isBlank)

/-! ## Another limit in a complaint -/

/-- The same expectation with another limit. -/
def Expected.withLimit (limit : Nat) : Expected → Expected
  | .occurrences _ => .occurrences limit
  | expected => expected

def Cause.withLimit (limit : Nat) : Cause → Cause
  | .wrongType found expected => .wrongType found (expected.withLimit limit)
  | cause => cause

def Halt.withLimit (limit : Nat) : Halt → Halt
  | .fault cause => .fault (cause.withLimit limit)
  | .limit => .limit

def Fault.withLimit (limit : Nat) (f : Fault) : Fault :=
  ⟨f.cause.withLimit limit, f.position⟩

def LoadError.withLimit (limit : Nat) : LoadError → LoadError
  | .unreadable fault => .unreadable (fault.withLimit limit)
  | .tooMany _ => .tooMany limit
  | error => error

theorem Place.expected_withLimit (limit limit' : Nat) (place : Place) :
    (place.expected limit').withLimit limit = place.expected limit := by
  cases place with
  | member field => cases field <;> rfl
  | element field => cases field <;> rfl
  | _ => rfl

/-! ## One step under two limits -/

/-- `x` is what becomes of `y` under a lower limit: either the limit is exceeded, and `y` keeps more
occurrences if it goes on, or nothing changes but the limit in a complaint. -/
def Narrows (limit : Nat) (x y : Except Halt Reader) : Prop :=
  (x = .error .limit ∧ Ok y fun r => limit < r.draft.count) ∨
    x = y.mapError (Halt.withLimit limit)

namespace Reader

variable {limit limit' : Nat}

theorem narrows_ok (r : Reader) : Narrows limit (.ok r) (.ok r) := .inr rfl

theorem narrows_fault {cause cause' : Cause} (h : cause'.withLimit limit = cause) :
    Narrows limit (fault cause) (fault cause') := by
  subst h
  exact .inr rfl

theorem narrows_bind {α : Type} {x y : Except Halt α} {f g : α → Except Halt Reader}
    (hxy : y.mapError (Halt.withLimit limit) = x) (hfg : ∀ a, Narrows limit (f a) (g a)) :
    Narrows limit (x >>= f) (y >>= g) := by
  subst hxy
  cases y with
  | error halt => exact .inr rfl
  | ok a => exact hfg a

theorem orDefect_withLimit {α : Type} (x : Except Json.Defect α) :
    (orDefect x).mapError (Halt.withLimit limit) = orDefect x := by
  cases x <;> rfl

theorem orFault_withLimit {α : Type} {x y : Except Cause α}
    (h : y.mapError (Cause.withLimit limit) = x) :
    (orFault y).mapError (Halt.withLimit limit) = orFault x := by
  subst h
  cases y <;> rfl

theorem storeText_withLimit (d : Draft) (place : Place) (s : String) :
    (storeText limit' d place s).mapError (Cause.withLimit limit) = storeText limit d place s := by
  have hExpected := place.expected_withLimit limit limit'
  unfold storeText
  split
  · rfl
  · rfl
  · rfl
  · simp only [Except.mapError, Cause.withLimit, hExpected]

theorem locationOf_withLimit (n : Json.Number) :
    (locationOf n).mapError (Cause.withLimit limit) = locationOf n := by
  cases n <;> rfl

theorem storeNumber_withLimit (d : Draft) (place : Place) (n : Json.Number) :
    (storeNumber limit' d place n).mapError (Cause.withLimit limit) =
      storeNumber limit d place n := by
  have hExpected := place.expected_withLimit limit limit'
  unfold storeNumber
  split
  · rfl
  · rw [mapError_map, locationOf_withLimit]
  · rw [mapError_map, locationOf_withLimit]
  · rw [mapError_map, locationOf_withLimit]
  · rw [mapError_map, locationOf_withLimit]
  · simp only [Except.mapError, Cause.withLimit, hExpected]

theorem closeNumber_withLimit (d : Draft) (place : Place) (scan : Json.NumberScan) :
    (closeNumber limit' d place scan).mapError (Cause.withLimit limit) =
      closeNumber limit d place scan := by
  unfold closeNumber
  split
  · rfl
  · exact storeNumber_withLimit d place _

theorem takeOccurrence_withLimit (fields : Fields) :
    (takeOccurrence fields).mapError (Halt.withLimit limit) = takeOccurrence fields := by
  unfold takeOccurrence
  split <;> rfl

/-- Here the limits differ: between the two the lower one halts and the higher one goes on with one
more occurrence. -/
theorem addOccurrence_narrows (hLe : limit ≤ limit') (d : Draft) :
    Narrows limit (addOccurrence limit d) (addOccurrence limit' d) := by
  rw [addOccurrence_eq, addOccurrence_eq]
  refine narrows_bind (takeOccurrence_withLimit d.fields) fun o => ?_
  split_ifs with hBelow hAbove hAbove
  · exact .inr rfl
  · refine .inl ⟨rfl, ok_of_ok ?_⟩
    change limit < (withOccurrence d o).count
    rw [count_withOccurrence]
    omega
  · omega
  · exact narrows_ok _

theorem closeObject_narrows (hLe : limit ≤ limit') (d : Draft) (holder : Holder) :
    Narrows limit (closeObject limit d holder) (closeObject limit' d holder) := by
  cases holder with
  | file =>
    dsimp only [closeObject]
    split
    · exact narrows_fault rfl
    · exact narrows_ok _
  | occurrence => exact addOccurrence_narrows hLe d

theorem openValue_narrows (d : Draft) (place : Place) (b : UInt8) :
    Narrows limit (openValue limit d place b) (openValue limit' d place b) := by
  have hExpected (found : Unexpected) :
      (Cause.wrongType found (place.expected limit')).withLimit limit =
        .wrongType found (place.expected limit) := by
    simp only [Cause.withLimit, place.expected_withLimit]
  unfold openValue
  split_ifs
  · exact narrows_ok _
  · exact narrows_ok _
  · split
    · exact narrows_ok _
    · exact narrows_ok _
    · exact narrows_fault (hExpected _)
  · split
    · exact narrows_ok _
    · exact narrows_ok _
    · exact narrows_fault (hExpected _)
  · exact narrows_ok _
  · exact narrows_ok _
  · exact narrows_ok _
  · exact narrows_fault rfl

theorem afterElement_narrows (hLe : limit ≤ limit') (d : Draft) (field : Field) (b : UInt8) :
    Narrows limit (afterElement limit d field b) (afterElement limit' d field b) := by
  cases field with
  | pattern => exact .inr (by dsimp only [afterElement]; split_ifs <;> rfl)
  | start => exact .inr (by dsimp only [afterElement]; split_ifs <;> rfl)
  | stop =>
    dsimp only [afterElement]
    split_ifs
    · exact narrows_ok _
    · exact addOccurrence_narrows hLe d
    · exact narrows_fault rfl

theorem stepGap_narrows (hLe : limit ≤ limit') (d : Draft) (gap : Gap) (b : UInt8) :
    Narrows limit (stepGap limit d gap b) (stepGap limit' d gap b) := by
  cases gap with
  | value place => exact openValue_narrows d place b
  | firstMember holder =>
    dsimp only [stepGap]
    split_ifs
    · exact narrows_ok _
    · exact closeObject_narrows hLe d holder
    · exact narrows_fault rfl
  | nextMember holder => exact .inr (by dsimp only [stepGap]; split_ifs <;> rfl)
  | colon holder place => exact .inr (by cases place <;> dsimp only [stepGap] <;> split_ifs <;> rfl)
  | repeated name => exact narrows_fault rfl
  | memberEnd holder =>
    dsimp only [stepGap]
    split_ifs
    · exact narrows_ok _
    · exact closeObject_narrows hLe d holder
    · exact narrows_fault rfl
  | firstOccurrence =>
    dsimp only [stepGap]
    split_ifs
    · exact narrows_ok _
    · exact openValue_narrows d .occurrence b
  | nextOccurrence =>
    dsimp only [stepGap]
    split_ifs
    · exact narrows_fault rfl
    · exact openValue_narrows d .occurrence b
  | occurrenceEnd => exact .inr (by dsimp only [stepGap]; split_ifs <;> rfl)
  | firstElement =>
    dsimp only [stepGap]
    split_ifs
    · exact narrows_fault rfl
    · exact openValue_narrows d _ b
  | nextElement field =>
    dsimp only [stepGap]
    split_ifs
    · exact narrows_fault rfl
    · exact openValue_narrows d _ b
  | elementEnd field => exact afterElement_narrows hLe d field b
  | surplus => exact .inr (by dsimp only [stepGap]; split_ifs <;> rfl)
  | finished => exact narrows_fault rfl

theorem stepBetween_narrows (hLe : limit ≤ limit') (d : Draft) (gap : Gap) (b : UInt8) :
    Narrows limit (stepBetween limit d gap b) (stepBetween limit' d gap b) := by
  unfold stepBetween
  split_ifs
  · exact narrows_ok _
  · exact stepGap_narrows hLe d gap b

theorem stepInside_narrows (hLe : limit ≤ limit') (d : Draft) (token : Token) (b : UInt8) :
    Narrows limit (stepInside limit d token b) (stepInside limit' d token b) := by
  cases token with
  | key holder scan =>
    refine narrows_bind (orDefect_withLimit _) fun outcome => ?_
    cases outcome with
    | more scan => exact narrows_ok _
    | closed bytes => exact narrows_bind (orDefect_withLimit _) fun _ => narrows_ok _
  | string place scan =>
    refine narrows_bind (orDefect_withLimit _) fun outcome => ?_
    cases outcome with
    | more scan => exact narrows_ok _
    | closed bytes =>
      refine narrows_bind (orDefect_withLimit _) fun s => ?_
      exact narrows_bind (orFault_withLimit (storeText_withLimit d place s)) fun _ => narrows_ok _
  | number place scan =>
    refine narrows_bind (orDefect_withLimit _) fun next => ?_
    cases next with
    | some scan => exact narrows_ok _
    | none =>
      refine narrows_bind (orFault_withLimit (closeNumber_withLimit d place scan)) fun x => ?_
      exact stepBetween_narrows hLe x.1 x.2 b
  | word place found left =>
    cases left with
    | nil => exact narrows_fault rfl
    | cons expected left =>
      dsimp only [stepInside]
      split_ifs
      · exact narrows_fault rfl
      · refine narrows_fault ?_
        simp only [Cause.withLimit, place.expected_withLimit]
      · exact narrows_ok _
  | skip holder scan =>
    refine narrows_bind (orDefect_withLimit _) fun outcome => ?_
    cases outcome with
    | more scan => exact narrows_ok _
    | ended => exact narrows_ok _
    | endedBefore => exact stepBetween_narrows hLe d _ b

theorem step_narrows (hLe : limit ≤ limit') (r : Reader) (b : UInt8) :
    Narrows limit (r.step limit b) (r.step limit' b) := by
  obtain ⟨d, gap | token⟩ := r
  · exact stepBetween_narrows hLe d gap b
  · exact stepInside_narrows hLe d token b

/-! ## The end of the input under two limits -/

theorem endGap_withLimit (d : Draft) (gap : Gap) :
    (endGap d gap).mapError (Cause.withLimit limit) = endGap d gap := by
  cases gap <;> rfl

theorem finish_withLimit (r : Reader) :
    (r.finish limit').mapError (Cause.withLimit limit) = r.finish limit := by
  obtain ⟨d, gap | token⟩ := r
  · exact endGap_withLimit d gap
  · cases token with
    | number place scan =>
      have hClose := @closeNumber_withLimit limit limit' d place scan
      simp only [finish, endToken, ← hClose]
      cases closeNumber limit' d place scan with
      | error cause => rfl
      | ok x => exact endGap_withLimit x.1 x.2
    | _ => rfl

theorem interrupt_withLimit (r : Reader) (failure : SourceFailure) :
    (r.interrupt failure).withLimit limit = r.interrupt failure := by
  unfold interrupt
  split <;> rfl

end Reader

theorem Fault.shownAt_withLimit (limit : Nat) (cause : Cause) (p : Position) :
    (Fault.shownAt cause p).withLimit limit = .shownAt (cause.withLimit limit) p := by
  cases cause with
  | defect d => cases d <;> rfl
  | _ => rfl

theorem Halt.toError_withLimit (limit limit' : Nat) (p : Position) (halt : Halt) :
    (halt.toError limit' p).withLimit limit = (halt.withLimit limit).toError limit p := by
  cases halt with
  | fault cause => exact congrArg LoadError.unreadable (Fault.shownAt_withLimit limit cause p)
  | limit => rfl

theorem conclude_withLimit (limit limit' : Nat) (r : Reader) (p : Position)
    (failure : Option SourceFailure) :
    (conclude limit' r p failure).mapError (LoadError.withLimit limit) =
      conclude limit r p failure := by
  cases failure with
  | none =>
    simp only [conclude, ← @Reader.finish_withLimit limit limit' r]
    cases r.finish limit' with
    | error cause =>
      simp only [Except.mapError, LoadError.withLimit, Fault.shownAt_withLimit]
    | ok file => rfl
  | some failure =>
    simp only [conclude, Except.mapError, LoadError.withLimit]
    split_ifs
    · rw [Fault.shownAt_withLimit, Reader.interrupt_withLimit]
    · simp only [Fault.withLimit, Reader.interrupt_withLimit]

/-! ## All bytes under two limits -/

theorem run_of_feed_ok {limit : Nat} {r r' : Reader} {p p' : Position} {bytes : List UInt8}
    (h : feed limit r p bytes = .ok (r', p')) : r.run limit bytes = .ok r' := by
  cases hRun : r.run limit bytes with
  | error halt =>
    obtain ⟨q, hFeed⟩ := feed_of_run_error hRun p
    rw [hFeed] at h
    cases h
  | ok s =>
    rw [feed_of_run_ok hRun] at h
    cases h
    rfl

/-- As long as the limit is not exceeded, the two readers go through the same states. Once it is,
the one with the higher limit never has fewer occurrences again. -/
theorem feed_narrows {limit limit' : Nat} (hLe : limit ≤ limit') {r : Reader}
    (hr : r.Listed limit') (p : Position) (bytes : List UInt8) :
    (feed limit r p bytes = .error (.tooMany limit) ∧
        Ok (feed limit' r p bytes) fun x => limit < x.1.draft.count) ∨
      feed limit r p bytes =
        (feed limit' r p bytes).mapError (LoadError.withLimit limit) := by
  induction bytes generalizing r p with
  | nil => exact .inr rfl
  | cons b bytes ih =>
    rcases Reader.step_narrows hLe r b with ⟨hHalt, hMore⟩ | hSame
    · refine .inl ⟨by simp only [feed, hHalt, Halt.toError], ?_⟩
      cases hStep : r.step limit' b with
      | error halt =>
        simp only [feed, hStep]
        exact ok_error _
      | ok next =>
        simp only [feed, hStep]
        rintro ⟨r', p'⟩ hFeed
        have hNext := (Reader.step_listed hr hStep).1
        have hCount := (Reader.run_listed hNext (run_of_feed_ok hFeed)).2
        exact Nat.lt_of_lt_of_le (hMore next hStep) hCount
    · cases hStep : r.step limit' b with
      | error halt =>
        rw [hStep] at hSame
        refine .inr ?_
        simp only [feed, hStep, hSame, Except.mapError, Halt.toError_withLimit]
      | ok next =>
        rw [hStep] at hSame
        simp only [feed, hStep, hSame, Except.mapError]
        exact ih (Reader.step_listed hr hStep).1 _

theorem length_found_le_of_parse {limit : Nat} {source : Source} {file : MatchFile}
    (h : parse limit source = .ok file) : file.found.length ≤ limit := by
  obtain ⟨_, d, hRun, rfl⟩ := parse_eq_ok_iff.mp h
  have hListed := (Reader.run_listed (Reader.listed_start limit) hRun).1
  simpa [Draft.file, Draft.count, Reader.atGap] using hListed.count_le

theorem parse_narrows {limit limit' : Nat} (hLe : limit ≤ limit') (source : Source) :
    (parse limit source = .error (.tooMany limit) ∧
        Ok (parse limit' source) fun file => limit < file.found.length) ∨
      parse limit source = (parse limit' source).mapError (LoadError.withLimit limit) := by
  rcases feed_narrows hLe (Reader.listed_start limit') .start source.bytes with
    ⟨hFeed, hMore⟩ | hFeed
  · refine .inl ⟨?_, ?_⟩
    · unfold parse
      rw [hFeed]
      rfl
    · intro file hParse
      obtain ⟨_, d, hRun, rfl⟩ := parse_eq_ok_iff.mp hParse
      have hCount := hMore _ (feed_of_run_ok hRun _)
      simpa [Draft.file, Draft.count, Reader.atGap] using hCount
  · refine .inr ?_
    unfold parse
    rw [hFeed]
    cases feed limit' .start .start source.bytes with
    | error e => rfl
    | ok x => exact (conclude_withLimit limit limit' x.1 x.2 source.failure).symm

/-! ## Reading under two limits -/

/-- Two faults that differ at most in the limit that their texts print. -/
structure Fault.AgreesUpToLimit (limit limit' : Nat) (f f' : Fault) : Prop where
  category : f.cause.category = f'.cause.category
  position : f.position = f'.position
  text : f.text = f'.text ∨ ∃ front back,
    f.text = front ++ ("an array of at most " ++ limit.repr ++ " matches") ++ back ∧
      f'.text = front ++ ("an array of at most " ++ limit'.repr ++ " matches") ++ back

theorem Fault.exists_text_eq_append (position : Option Position) :
    ∃ back, ∀ cause : Cause, Fault.text ⟨cause, position⟩ = cause.text ++ back := by
  cases position with
  | none => exact ⟨"", fun cause => String.append_empty.symm⟩
  | some p => exact ⟨_, fun cause => rfl⟩

theorem Fault.withLimit_agrees (limit limit' : Nat) (f : Fault) :
    (f.withLimit limit).AgreesUpToLimit limit limit' (f.withLimit limit') := by
  obtain ⟨cause, position⟩ := f
  cases cause with
  | wrongType found expected =>
    cases expected with
    | occurrences n =>
      obtain ⟨back, hBack⟩ := Fault.exists_text_eq_append position
      exact ⟨rfl, rfl, .inr ⟨"invalid type: " ++ found.text ++ ", expected ", back, hBack _,
        hBack _⟩⟩
    | _ => exact ⟨rfl, rfl, .inl rfl⟩
  | _ => exact ⟨rfl, rfl, .inl rfl⟩

/-- What a lower limit makes of the result under the limit `limit'`. -/
structure LowersTo (limit limit' : Nat) (source : Source) : Prop where
  ok : ∀ file, read limit' source = .ok file →
    read limit source = if file.found.length ≤ limit then .ok file else .error (.tooMany limit)
  tooMany : ∀ n, read limit' source = .error (.tooMany n) →
    n = limit' ∧ read limit source = .error (.tooMany limit)
  unnamed : ∀ i, read limit' source = .error (.unnamed i) →
    read limit source = .error (.unnamed i) ∨ read limit source = .error (.tooMany limit)
  unreadable : ∀ fault', read limit' source = .error (.unreadable fault') →
    read limit source = .error (.tooMany limit) ∨
      ∃ fault, read limit source = .error (.unreadable fault) ∧
        fault.AgreesUpToLimit limit limit' fault'
  unopened : ∀ error, read limit' source ≠ .error (.unopened error)

/-- The limit that a fault prints is the limit of the reader. -/
theorem withLimit_eq_self_of_parse {limit : Nat} {source : Source} {fault : Fault}
    (h : parse limit source = .error (.unreadable fault)) : fault.withLimit limit = fault := by
  rcases parse_narrows (Nat.le_refl limit) source with ⟨hMany, _⟩ | hSame
  · rw [h] at hMany
    cases hMany
  · rw [h] at hSame
    simp only [Except.mapError, LoadError.withLimit, Except.error.injEq,
      LoadError.unreadable.injEq] at hSame
    exact hSame.symm

theorem lowersTo_of_le {limit limit' : Nat} (hLe : limit ≤ limit') (source : Source) :
    LowersTo limit limit' source := by
  have hNarrows := parse_narrows hLe source
  refine ⟨?_, ?_, ?_, ?_, ?_⟩
  · intro file hRead
    obtain ⟨hParse, hNamed⟩ := read_eq_ok_iff.mp hRead
    rcases hNarrows with ⟨hMany, hMore⟩ | hSame
    · rw [if_neg (Nat.not_le.mpr (hMore file hParse))]
      exact read_of_parse_error hMany
    · rw [hParse] at hSame
      rw [if_pos (length_found_le_of_parse hSame)]
      exact read_eq_ok_iff.mpr ⟨hSame, hNamed⟩
  · intro n hRead
    have hParse := parse_eq_error_of_read hRead nofun
    have hn : n = limit' := by
      rcases parse_error_cases hParse with ⟨fault, hFault⟩ | hLimit
      · cases hFault
      · cases hLimit
        rfl
    refine ⟨hn, ?_⟩
    rcases hNarrows with ⟨hMany, _⟩ | hSame
    · exact read_of_parse_error hMany
    · rw [hParse] at hSame
      exact read_of_parse_error hSame
  · intro i hRead
    obtain ⟨file, hParse, hLeast⟩ := read_eq_unnamed_iff.mp hRead
    rcases hNarrows with ⟨hMany, _⟩ | hSame
    · exact .inr (read_of_parse_error hMany)
    · rw [hParse] at hSame
      exact .inl (read_eq_unnamed_iff.mpr ⟨file, hSame, hLeast⟩)
  · intro fault' hRead
    have hParse := parse_eq_error_of_read hRead nofun
    rcases hNarrows with ⟨hMany, _⟩ | hSame
    · exact .inl (read_of_parse_error hMany)
    · rw [hParse] at hSame
      refine .inr ⟨fault'.withLimit limit, read_of_parse_error hSame, ?_⟩
      have hAgrees := fault'.withLimit_agrees limit limit'
      rwa [withLimit_eq_self_of_parse hParse] at hAgrees
  · intro error hRead
    rcases parse_error_cases (parse_eq_error_of_read hRead nofun) with ⟨fault, hFault⟩ | hLimit
    · cases hFault
    · cases hLimit

/-- Reading under a lower limit gives the same file, the same complaint about a blank name or the
same fault, unless there are too many occurrences for it. A file that is read keeps to the limit and
has no blank names; the first blank name is complained of. -/
theorem read_of_lower_limit {limit limit' : Nat} (hLe : limit ≤ limit') (source : Source) :
    LowersTo limit limit' source ∧
      (∀ file, read limit source = .ok file →
        file.found.length ≤ limit ∧ ∀ o ∈ file.found, Text.allBlank o.pattern = false) ∧
      (∀ i, read limit source = .error (.unnamed i) →
        ∃ file, parse limit source = .ok file ∧ IsLeast (unnamedAt file.found) i) := by
  refine ⟨lowersTo_of_le hLe source, ?_, ?_⟩
  · intro file hRead
    obtain ⟨hParse, hNamed⟩ := read_eq_ok_iff.mp hRead
    exact ⟨length_found_le_of_parse hParse, hNamed⟩
  · intro i hRead
    exact read_eq_unnamed_iff.mp hRead

/-- Two occurrences, which are one too many for the lower limit. -/
theorem read_of_lower_limit_cut :
    1 ≤ 2 ∧
      read 2 (.ofBytes (Utf8.encode "\x7b\"matches\": [[\"a\", 0, 1], [\"b\", 0, 2]]\x7d")) =
        .ok ⟨{}, [⟨"a", 0, 1⟩, ⟨"b", 0, 2⟩]⟩ ∧
      read 1 (.ofBytes (Utf8.encode "\x7b\"matches\": [[\"a\", 0, 1], [\"b\", 0, 2]]\x7d")) =
        .error (.tooMany 1) := by
  have hRead : read 2 (.ofBytes
      (Utf8.encode "\x7b\"matches\": [[\"a\", 0, 1], [\"b\", 0, 2]]\x7d")) =
        .ok ⟨{}, [⟨"a", 0, 1⟩, ⟨"b", 0, 2⟩]⟩ := by
    decide +kernel
  exact ⟨by decide, hRead, (read_of_lower_limit (by decide) _).1.ok _ hRead⟩

end PatternAudit.MatchFile
