import PatternAudit.Proofs.Balance
import PatternAudit.Proofs.Fallible

/-!
# How scoring two files ends

The command `evaluate` is told where the matched file and the reference file are, loads the one and
then the other, and reports. It ends in one of four ways, which `Evaluated` lists.

* `EvaluateOptions.Names` says which two files the options name. There are two ways of naming them,
  and no other is accepted (`inputs_eq_ok_iff`). This holds if an executable comes with a matcher,
  which is seen to by every command line that is understood, wherever in it options and files stand
  (`complete_of_parse`).
* `Exit.AccountsFor` says what the exit status, the two outputs and the outermost message tell about
  the two files. It is read off the four ways (`accountsFor_exit`).

So there is a whole report or none, and whoever is told of the reference file knows that the matched
file is all right.
-/

namespace PatternAudit

/-- The file at the path can be loaded. -/
def MatchFile.Loads (disk : Disk) (path : Path) : Prop :=
  ∃ file, load disk path = .ok file

theorem MatchFile.not_loads_of_error {disk : Disk} {path : Path} {e : LoadError}
    (h : load disk path = .error e) : ¬ Loads disk path := by
  rintro ⟨file, hLoad⟩
  rw [h] at hLoad
  cases hLoad

namespace CommandLine

open MatchFile (Loads not_loads_of_error)

/-! ## Options of a command line that is understood -/

/-- The command is read from the arguments that follow its name. By induction on the arguments
before the name, which may hold options and their values. -/
theorem exists_of_parseFrom {s : Scan} {arguments : List String} {i : Invocation}
    (h : parseFrom s arguments = .ok i) :
    ∃ rest inner, parseEvaluate rest = .ok (inner, i.command) ∨
      parsePatterns rest = .ok (inner, i.command) := by
  fun_induction parseFrom s arguments with
  | case1 s =>
    obtain ⟨_, -, h⟩ := exists_of_bind_eq_ok h
    cases h
  | case2 => cases h
  | case3 s argument rest name hName hPlain hAwaits ih =>
    obtain ⟨next, -, h⟩ := exists_of_bind_eq_ok h
    exact ih next h
  | case4 => cases h
  | case5 s argument rest hPlain hAwaits hName =>
    obtain ⟨⟨inner, command⟩, hInner, h⟩ := exists_of_bind_eq_ok h
    obtain ⟨_, -, h⟩ := exists_of_bind_eq_ok h
    cases h
    exact ⟨rest, inner, .inl hInner⟩
  | case6 s argument rest hPlain hAwaits hName =>
    obtain ⟨⟨inner, command⟩, hInner, h⟩ := exists_of_bind_eq_ok h
    obtain ⟨_, -, h⟩ := exists_of_bind_eq_ok h
    cases h
    exact ⟨rest, inner, .inr hInner⟩
  | case7 s argument rest hName ih =>
    obtain ⟨next, -, h⟩ := exists_of_bind_eq_ok h
    exact ih next h

theorem parsePatterns_ne_evaluate {arguments : List String} {g : Given} {o : EvaluateOptions} :
    parsePatterns arguments ≠ .ok (g, .evaluate o) := by
  intro h
  obtain ⟨given, -, h⟩ := exists_of_bind_eq_ok h
  split at h
  · cases h
  · cases h

/-- There is a file, and an executable is given if and only if a matcher is. -/
structure EvaluateOptions.Complete (o : EvaluateOptions) : Prop where
  files_ne_nil : o.files ≠ []
  paired : o.executable.isSome = o.matcher.isSome

theorem complete_of_parseEvaluate {arguments : List String} {g : Given} {o : EvaluateOptions}
    (h : parseEvaluate arguments = .ok (g, .evaluate o)) : o.Complete := by
  obtain ⟨given, -, h⟩ := exists_of_bind_eq_ok h
  split at h
  · cases h
  · rename_i hChecked
    cases h
    rw [Bool.or_eq_true, not_or, List.isEmpty_iff, bne_iff_ne, not_ne_iff] at hChecked
    exact ⟨hChecked.1, hChecked.2⟩

theorem complete_of_parse {arguments : List String} {i : Invocation} {o : EvaluateOptions}
    (h : parse arguments = .ok i) (hCommand : i.command = .evaluate o) : o.Complete := by
  obtain ⟨rest, inner, hInner⟩ := exists_of_parseFrom h
  rw [hCommand] at hInner
  rcases hInner with hInner | hInner
  · exact complete_of_parseEvaluate hInner
  · exact absurd hInner parsePatterns_ne_evaluate

/-! ## The files that are named -/

/-- Two files without an executable, or one file with it. More than two can be given, with options
between them, but are not supported. -/
def EvaluateOptions.Supported (o : EvaluateOptions) : Prop :=
  (o.files.length = 2 ∧ o.executable = none) ∨ (o.files.length = 1 ∧ o.executable.isSome)

/-- The matched file and the reference file of the options. Both are given, or the reference is, and
the matched file stands beside the executable. -/
inductive EvaluateOptions.Names (o : EvaluateOptions) : Path → Path → Prop
  | given {matched reference : String} (hFiles : o.files = [matched, reference])
    (hExecutable : o.executable = none) :
    Names o (.ofString matched) (.ofString reference)
  | beside {executable matcher reference : String} (hFiles : o.files = [reference])
    (hExecutable : o.executable = some executable) (hMatcher : o.matcher = some matcher) :
    Names o (matchPath (.ofString executable) matcher) (.ofString reference)

namespace EvaluateOptions

variable {o : EvaluateOptions} {matched reference : Path}

theorem inputs_eq_ok_iff (hComplete : o.Complete) :
    o.inputs = .ok (matched, reference) ↔ o.Names matched reference := by
  have hPaired := hComplete.paired
  constructor
  · intro h
    unfold inputs at h
    split at h
    · rename_i hFiles hExecutable _
      cases h
      exact .given hFiles hExecutable
    · rename_i hFiles hExecutable hMatcher
      cases h
      exact .beside hFiles hExecutable hMatcher
    · cases h
    · cases h
  · intro h
    unfold inputs
    cases h with
    | given hFiles hExecutable =>
      have hMatcher : o.matcher = none := by
        rwa [hExecutable, Option.isSome_none, eq_comm, Option.isSome_eq_false_iff,
          Option.isNone_iff_eq_none] at hPaired
      rw [hFiles, hExecutable, hMatcher]
    | beside hFiles hExecutable hMatcher => rw [hFiles, hExecutable, hMatcher]

theorem supported_iff (hComplete : o.Complete) :
    o.Supported ↔ ∃ matched reference, o.Names matched reference := by
  constructor
  · rintro (⟨hLength, hExecutable⟩ | ⟨hLength, hExecutable⟩)
    · obtain ⟨matched, reference, hFiles⟩ := List.length_eq_two.mp hLength
      exact ⟨_, _, .given hFiles hExecutable⟩
    · obtain ⟨reference, hFiles⟩ := List.length_eq_one_iff.mp hLength
      have hMatcher := hComplete.paired.symm.trans hExecutable
      obtain ⟨executable, hExecutable⟩ := Option.isSome_iff_exists.mp hExecutable
      obtain ⟨matcher, hMatcher⟩ := Option.isSome_iff_exists.mp hMatcher
      exact ⟨_, _, .beside hFiles hExecutable hMatcher⟩
  · rintro ⟨_, _, hNames⟩
    cases hNames with
    | given hFiles hExecutable => exact .inl ⟨congrArg List.length hFiles, hExecutable⟩
    | beside hFiles hExecutable hMatcher =>
      exact .inr ⟨congrArg List.length hFiles, congrArg Option.isSome hExecutable⟩

end EvaluateOptions

/-! ## The four ways to end -/

/-- What scoring can come to: it is not clear which files are meant, the matched file cannot be
loaded, or the reference after it, or there is a report. -/
inductive Evaluated (disk : Disk) (o : EvaluateOptions) : Outcome → Prop
  | unclear {message : String} (hInputs : o.inputs = .error message) :
    Evaluated disk o (.failed [] [message])
  | matched {matched reference : Path} {e : MatchFile.LoadError}
    (hInputs : o.inputs = .ok (matched, reference))
    (hMatched : MatchFile.load disk matched = .error e) :
    Evaluated disk o (.unloaded [] (loadContext "matched" matched) e)
  | reference {matched reference : Path} {e : MatchFile.LoadError} (notes : List Note)
    (hInputs : o.inputs = .ok (matched, reference)) (hMatched : Loads disk matched)
    (hReference : MatchFile.load disk reference = .error e) :
    Evaluated disk o (.unloaded notes (loadContext "reference" reference) e)
  | scored {matched reference : Path} (notes : List Note) (report : String)
    (hInputs : o.inputs = .ok (matched, reference)) (hMatched : Loads disk matched)
    (hReference : Loads disk reference) : Evaluated disk o (.success notes report)

theorem evaluated_runEvaluate (disk : Disk) (format : Format) (verbose : Bool)
    (o : EvaluateOptions) : Evaluated disk o (runEvaluate disk format verbose o) := by
  unfold runEvaluate
  split
  · rename_i hInputs
    exact .unclear hInputs
  · rename_i matched reference hInputs
    split
    · rename_i e hMatched
      exact .matched hInputs hMatched
    · rename_i file hMatched
      dsimp only
      split
      · rename_i e hReference
        exact .reference _ hInputs ⟨file, hMatched⟩ hReference
      · rename_i file' hReference
        exact .scored _ _ hInputs ⟨file, hMatched⟩ ⟨file', hReference⟩

/-- The message that a failure begins with. -/
def Outcome.outermost? (outcome : Outcome) : Option String :=
  outcome.failure.bind List.head?

/-- The message tells the two files apart, whatever they are called. -/
theorem loadContext_reference_ne (path path' : Path) :
    loadContext "reference" path ≠ loadContext "matched" path' := by
  intro h
  have hLetter := congrArg (fun message => message.toList[15]?) h
  unfold loadContext at hLetter
  simp only [String.toList_append, List.append_assoc] at hLetter
  cases hLetter

namespace Evaluated

variable {disk : Disk} {o : EvaluateOptions} {outcome : Outcome}

theorem failure_eq_none_iff (h : Evaluated disk o outcome) :
    outcome.failure = none ↔ ∃ matched reference, o.inputs = .ok (matched, reference) ∧
      Loads disk matched ∧ Loads disk reference := by
  cases h with
  | unclear hInputs => simp [Outcome.failed, hInputs]
  | matched hInputs hMatched =>
    simp [Outcome.unloaded, Outcome.failed, hInputs, not_loads_of_error hMatched]
  | reference notes hInputs hMatched hReference =>
    simp [Outcome.unloaded, Outcome.failed, hInputs, not_loads_of_error hReference]
  | scored notes report hInputs hMatched hReference =>
    simp [Outcome.success, hInputs, hMatched, hReference]

theorem report_eq_empty (h : Evaluated disk o outcome) (hFailure : outcome.failure ≠ none) :
    outcome.report = "" := by
  cases h with
  | unclear => rfl
  | matched => rfl
  | reference => rfl
  | scored => exact absurd rfl hFailure

/-- The matched file is tried first. The reference is only asked for once that has been loaded. -/
theorem outermost?_cases (h : Evaluated disk o outcome) {matched reference : Path}
    (hInputs : o.inputs = .ok (matched, reference)) :
    (¬ Loads disk matched ∧ outcome.outermost? = some (loadContext "matched" matched)) ∨
    (Loads disk matched ∧ ¬ Loads disk reference ∧
      outcome.outermost? = some (loadContext "reference" reference)) ∨
    (Loads disk matched ∧ Loads disk reference ∧ outcome.outermost? = none) := by
  cases h with
  | unclear hNone =>
    rw [hNone] at hInputs
    cases hInputs
  | matched hSame hMatched =>
    cases hSame.symm.trans hInputs
    exact .inl ⟨not_loads_of_error hMatched, rfl⟩
  | reference notes hSame hMatched hReference =>
    cases hSame.symm.trans hInputs
    exact .inr (.inl ⟨hMatched, not_loads_of_error hReference, rfl⟩)
  | scored notes report hSame hMatched hReference =>
    cases hSame.symm.trans hInputs
    exact .inr (.inr ⟨hMatched, hReference, rfl⟩)

theorem outermost?_eq_matched_iff (h : Evaluated disk o outcome) {matched reference : Path}
    (hInputs : o.inputs = .ok (matched, reference)) :
    outcome.outermost? = some (loadContext "matched" matched) ↔ ¬ Loads disk matched := by
  obtain ⟨hMatched, hOutermost⟩ | ⟨hMatched, -, hOutermost⟩ | ⟨hMatched, -, hOutermost⟩ :=
    h.outermost?_cases hInputs
  · exact iff_of_true hOutermost hMatched
  · refine iff_of_false ?_ (not_not_intro hMatched)
    rw [hOutermost, Option.some_inj]
    exact loadContext_reference_ne reference matched
  · refine iff_of_false ?_ (not_not_intro hMatched)
    rw [hOutermost]
    exact (Option.some_ne_none _).symm

theorem outermost?_eq_reference_iff (h : Evaluated disk o outcome) {matched reference : Path}
    (hInputs : o.inputs = .ok (matched, reference)) :
    outcome.outermost? = some (loadContext "reference" reference) ↔
      Loads disk matched ∧ ¬ Loads disk reference := by
  obtain ⟨hMatched, hOutermost⟩ | ⟨hMatched, hReference, hOutermost⟩ |
    ⟨-, hReference, hOutermost⟩ := h.outermost?_cases hInputs
  · refine iff_of_false ?_ (fun hLoads => hMatched hLoads.1)
    rw [hOutermost, Option.some_inj]
    exact (loadContext_reference_ne reference matched).symm
  · exact iff_of_true hOutermost ⟨hMatched, hReference⟩
  · refine iff_of_false ?_ (fun hLoads => hLoads.2 hReference)
    rw [hOutermost]
    exact (Option.some_ne_none _).symm

end Evaluated

/-! ## The exit -/

/-- What an exit tells about the files of the command `evaluate`. It is a success if both are named
and can be loaded. Otherwise there is no report, and if they are named, the outermost message is
about the first of them that cannot be loaded. -/
structure Exit.AccountsFor (disk : Disk) (o : EvaluateOptions) (outermost : Option String)
    (e : Exit) : Prop where
  complete : o.Complete
  supported_iff : o.Supported ↔ ∃ matched reference, o.Names matched reference
  succeeds_iff : e.status = 0 ↔ ∃ matched reference, o.Names matched reference ∧
    Loads disk matched ∧ Loads disk reference
  fails : e.status ≠ 0 → e.status = 1 ∧ e.stdout = ""
  matched_iff : ∀ matched reference, o.Names matched reference →
    (outermost = some (loadContext "matched" matched) ↔ ¬ Loads disk matched)
  reference_iff : ∀ matched reference, o.Names matched reference →
    (outermost = some (loadContext "reference" reference) ↔
      Loads disk matched ∧ ¬ Loads disk reference)
  shown : ∀ message, outermost = some message → ∃ notes causes,
    e.stderr = notes ++ ("Error: " ++ message ++ "\n" ++ causesText causes)

namespace Outcome

variable (verbose : Bool) (outcome : Outcome)

theorem status_exit : (outcome.exit verbose).status = if outcome.failure = none then 0 else 1 := by
  unfold exit
  cases outcome.failure with
  | none => rfl
  | some messages => rfl

theorem stdout_exit : (outcome.exit verbose).stdout = outcome.report := by
  unfold exit
  cases outcome.failure with
  | none => rfl
  | some messages => rfl

theorem stderr_exit_of_outermost? {message : String} (h : outcome.outermost? = some message) :
    ∃ notes causes, (outcome.exit verbose).stderr =
      notes ++ ("Error: " ++ message ++ "\n" ++ causesText causes) := by
  obtain ⟨messages, hFailure, hHead⟩ := Option.bind_eq_some_iff.mp h
  obtain ⟨causes, rfl⟩ := List.head?_eq_some_iff.mp hHead
  refine ⟨String.join (outcome.notes.map (Note.render verbose)), causes, ?_⟩
  unfold exit
  rw [hFailure]
  rfl

end Outcome

theorem accountsFor_exit {disk : Disk} {o : EvaluateOptions} {outcome : Outcome}
    (hComplete : o.Complete) (h : Evaluated disk o outcome) (verbose : Bool) :
    (outcome.exit verbose).AccountsFor disk o outcome.outermost? := by
  have hStatus := outcome.status_exit verbose
  have hNames (matched reference : Path) :
      o.inputs = .ok (matched, reference) ↔ o.Names matched reference :=
    EvaluateOptions.inputs_eq_ok_iff hComplete
  refine ⟨hComplete, EvaluateOptions.supported_iff hComplete, ?_, ?_, ?_, ?_, ?_⟩
  · simp only [← hNames]
    rw [← h.failure_eq_none_iff, hStatus]
    split_ifs with hFailure
    · exact iff_of_true rfl hFailure
    · exact iff_of_false (by decide) hFailure
  · rw [hStatus, outcome.stdout_exit verbose]
    split_ifs with hFailure
    · exact fun hNe => absurd rfl hNe
    · exact fun _ => ⟨rfl, h.report_eq_empty hFailure⟩
  · intro matched reference hFiles
    exact h.outermost?_eq_matched_iff ((hNames _ _).mpr hFiles)
  · intro matched reference hFiles
    exact h.outermost?_eq_reference_iff ((hNames _ _).mpr hFiles)
  · intro message hOutermost
    exact outcome.stderr_exit_of_outermost? verbose hOutermost

/-- Both files given, with an option between them. -/
def bothGiven : List String :=
  ["evaluate", "m.json", "-v", "r.json"]

/-- The reference given, with an executable. -/
def referenceGiven : List String :=
  ["-fcsv", "evaluate", "--executable=bin/ls.exe", "n.json", "--matcher", "cfg"]

theorem parse_bothGiven :
    parse bothGiven = .ok ⟨true, .text, .evaluate ⟨["m.json", "r.json"], none, none, true⟩⟩ := by
  decide +kernel

theorem parse_referenceGiven :
    parse referenceGiven =
      .ok ⟨false, .csv, .evaluate ⟨["n.json"], some "bin/ls.exe", some "cfg", true⟩⟩ := by
  decide +kernel

theorem not_loads_twoFiles :
    ¬ Loads twoFiles (.ofString "n.json") ∧
      ¬ Loads twoFiles (matchPath (.ofString "bin/ls.exe") "cfg") := by
  have hOpen : twoFiles (.ofString "n.json") = .error .notFound ∧
      twoFiles (matchPath (.ofString "bin/ls.exe") "cfg") = .error .notFound := by
    decide +kernel
  constructor
  · apply not_loads_of_error
    rw [MatchFile.load, hOpen.1]
  · apply not_loads_of_error
    rw [MatchFile.load, hOpen.2]

end CommandLine

end PatternAudit
