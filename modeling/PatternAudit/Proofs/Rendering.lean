import PatternAudit.Proofs.ReaderTokens
import PatternAudit.Proofs.WrittenText

/-!
# Every rendering of a match file is read

A match file can be written in many ways: blanks may stand between all tokens, members may stand in
any order and be mixed with members that have other keys, strings may be spelled with escapes, and
an occurrence may be an object or an array. `FileText` says which texts these are, by the members
that they hold. All of them are read, and in the same way (`parse_of_fileText`): the occurrences are
those of the one list of them, and of several members that tell the same about the run the last
counts.

The proof follows the grammar. Each level has an invariant that relates the draft to the members or
items still to come: `Gathers` for an occurrence, `Lists` for the list of occurrences and `Tells`
for the file.
-/

namespace PatternAudit.MatchFile

open Json

/-! ## Occurrences -/

/-- A member of an occurrence. -/
inductive FieldEntry
  | pattern (s : String)
  | start (n : UInt64)
  | stop (n : UInt64)
  | other

namespace FieldEntry

def pattern? : FieldEntry → Option String
  | pattern s => some s
  | _ => none

def start? : FieldEntry → Option UInt64
  | start n => some n
  | _ => none

def stop? : FieldEntry → Option UInt64
  | stop n => some n
  | _ => none

end FieldEntry

/-- The keys that have a meaning in an occurrence. -/
def fieldKeys : List String :=
  [Field.name .pattern, Field.name .start, Field.name .stop]

inductive FieldText : FieldEntry → List UInt8 → Prop
  | pattern {s : String} {t : List UInt8} (h : MemberText (Field.name .pattern) (StringText s) t) :
    FieldText (.pattern s) t
  | start {n : UInt64} {t : List UInt8} (h : MemberText (Field.name .start) (LocationText n) t) :
    FieldText (.start n) t
  | stop {n : UInt64} {t : List UInt8} (h : MemberText (Field.name .stop) (LocationText n) t) :
    FieldText (.stop n) t
  | other {key : String} {t : List UInt8} (hKey : key ∉ fieldKeys)
    (h : MemberText key (PartText .value) t) : FieldText .other t

/-- The ways to write an occurrence: as an object with each field once, or as an array. -/
inductive OccurrenceText (o : Occurrence) : List UInt8 → Prop
  | object {fs : List FieldEntry} {t : List UInt8} (h : Enclosed '\x7b' '\x7d' FieldText fs t)
    (hPattern : fs.filterMap FieldEntry.pattern? = [o.pattern])
    (hStart : fs.filterMap FieldEntry.start? = [o.start])
    (hStop : fs.filterMap FieldEntry.stop? = [o.stop]) : OccurrenceText o t
  | array {t u v : List UInt8} (hPattern : Padded (StringText o.pattern) t)
    (hStart : Padded (LocationText o.start) u) (hStop : Padded (LocationText o.stop) v) :
    OccurrenceText o
      (byte '[' :: (t ++ byte ',' :: (u ++ byte ',' :: (v ++ [byte ']']))))

/-! ## Files -/

def TextKey.name : TextKey → String
  | executable => "executableName"
  | matcher => "matcherName"
  | architecture => "executableArchitecture"

def TimeKey.name : TimeKey → String
  | real => "realTime"
  | cpu => "cpuTime"

/-- The keys that have a meaning in a match file. -/
def fileKeys : List String :=
  [TextKey.name .executable, TextKey.name .matcher, TextKey.name .architecture, TimeKey.name .real,
    TimeKey.name .cpu, "matches"]

/-- A member of a match file. -/
inductive Entry
  | text (key : TextKey) (s : String)
  | time (key : TimeKey) (x : Float)
  | occurrences (os : List Occurrence)
  | other

namespace Entry

def text? (key : TextKey) : Entry → Option String
  | text key' s => if key' = key then some s else none
  | _ => none

def time? (key : TimeKey) : Entry → Option Float
  | time key' x => if key' = key then some x else none
  | _ => none

def occurrences? : Entry → Option (List Occurrence)
  | occurrences os => some os
  | _ => none

end Entry

/-- Any number is the text of a time, unless it is out of range. -/
structure TimeText (x : Float) (t : List UInt8) : Prop where
  form : NumberText t
  inRange : readNumber t ≠ .error .hugeNumber
  value : ∀ n, readNumber t = .ok n → Reader.timeOf n = x

inductive EntryText : Entry → List UInt8 → Prop
  | text {key : TextKey} {s : String} {t : List UInt8} (h : MemberText key.name (StringText s) t) :
    EntryText (.text key s) t
  | time {key : TimeKey} {x : Float} {t : List UInt8} (h : MemberText key.name (TimeText x) t) :
    EntryText (.time key x) t
  | occurrences {os : List Occurrence} {t : List UInt8}
    (h : MemberText "matches" (Enclosed '[' ']' (fun o => Padded (OccurrenceText o)) os) t) :
    EntryText (.occurrences os) t
  | other {key : String} {t : List UInt8} (hKey : key ∉ fileKeys)
    (h : MemberText key (PartText .value) t) : EntryText .other t

/-- The ways to write a file that holds the given members. -/
def FileText (entries : List Entry) (t : List UInt8) : Prop :=
  Padded (Enclosed '\x7b' '\x7d' EntryText entries) t

/-- What some members tell of a run. The last of several members with one key counts, and what no
member tells is taken from `r`. -/
def tellRun (r : RunInfo) (entries : List Entry) : RunInfo where
  executable := (entries.filterMap (Entry.text? .executable)).getLastD r.executable
  matcher := (entries.filterMap (Entry.text? .matcher)).getLastD r.matcher
  architecture := (entries.filterMap (Entry.text? .architecture)).getLastD r.architecture
  realTime := (entries.filterMap (Entry.time? .real)).getLastD r.realTime
  cpuTime := (entries.filterMap (Entry.time? .cpu)).getLastD r.cpuTime

namespace Reader

variable {limit : Nat} {d : Draft} {gap : Gap} {t rest : List UInt8}

/-! ## The run over an occurrence -/

theorem locationOf_natural (n : UInt64) : locationOf (.natural n.toNat) = .ok n := by
  simp [locationOf]

theorem keyGap_field {field : Field} (h : d.hasField field = false) :
    keyGap d .occurrence field.name = .colon .occurrence (some (.member field)) := by
  cases field <;> simp [keyGap, fieldGap, Field.name, h]

theorem keyGap_not_field {key : String} (h : key ∉ fieldKeys) :
    keyGap d .occurrence key = .colon .occurrence none := by
  simp only [fieldKeys, List.mem_cons, List.not_mem_nil, or_false, not_or] at h
  simp [keyGap, h]

/-- The fields read so far, with those still to come, are those of `o`; the rest of the draft is as
before the occurrence. -/
structure Gathers (o : Occurrence) (before d : Draft) (fs : List FieldEntry) : Prop where
  run : d.run = before.run
  found : d.found = before.found
  pattern : d.fields.pattern.toList ++ fs.filterMap FieldEntry.pattern? = [o.pattern]
  start : d.fields.start.toList ++ fs.filterMap FieldEntry.start? = [o.start]
  stop : d.fields.stop.toList ++ fs.filterMap FieldEntry.stop? = [o.stop]

/-- What is still to come once has not been there. -/
theorem eq_none_of_toList_append {α : Type} {x : Option α} {a b : α} {as : List α}
    (h : x.toList ++ a :: as = [b]) : x = none := by
  cases x with
  | none => rfl
  | some c => simp at h

theorem run_field {o : Occurrence} {before : Draft} {f : FieldEntry} {fs : List FieldEntry}
    (hGap : BeforeMember .occurrence gap) (hInv : Gathers o before d (f :: fs))
    (h : FieldText f t) (hRest : Delimited rest) :
    ∃ d', Gathers o before d' fs ∧
      run limit (atGap d gap) (t ++ rest) = run limit (atGap d' (.memberEnd .occurrence)) rest := by
  obtain ⟨hRun, hFound, hPattern, hStart, hStop⟩ := hInv
  cases h with
  | @pattern s _ h =>
    -- The field is still to come and there only once, so its key is not refused as repeated.
    have hNone : d.fields.pattern = none := eq_none_of_toList_append hPattern
    rw [hNone] at hPattern
    refine ⟨d.setPattern s, ⟨hRun, hFound, hPattern, hStart, hStop⟩, ?_⟩
    refine run_member hGap h (keyGap_field (by simp [Draft.hasField, hNone])) ?_ hRest
    intro w v rest hw hv _
    exact (run_gap_blanks hw).trans (run_string rfl hv rfl)
  | @start n _ h =>
    have hNone : d.fields.start = none := eq_none_of_toList_append hStart
    rw [hNone] at hStart
    refine ⟨d.setStart n, ⟨hRun, hFound, hPattern, hStart, hStop⟩, ?_⟩
    refine run_member hGap h (keyGap_field (by simp [Draft.hasField, hNone])) ?_ hRest
    intro w v rest hw hv hRest
    refine (run_gap_blanks hw).trans (run_number rfl (readNumber_of_locationText hv) ?_ hRest)
    simp only [storeNumber, locationOf_natural, Except.map]
  | @stop n _ h =>
    have hNone : d.fields.stop = none := eq_none_of_toList_append hStop
    rw [hNone] at hStop
    refine ⟨d.setStop n, ⟨hRun, hFound, hPattern, hStart, hStop⟩, ?_⟩
    refine run_member hGap h (keyGap_field (by simp [Draft.hasField, hNone])) ?_ hRest
    intro w v rest hw hv hRest
    refine (run_gap_blanks hw).trans (run_number rfl (readNumber_of_locationText hv) ?_ hRest)
    simp only [storeNumber, locationOf_natural, Except.map]
  | other hKey h =>
    refine ⟨d, ⟨hRun, hFound, hPattern, hStart, hStop⟩, ?_⟩
    exact run_other_member hGap h (keyGap_not_field hKey) hRest

theorem takeOccurrence_of_gathers {o : Occurrence} {before : Draft} (h : Gathers o before d []) :
    takeOccurrence d.fields = .ok o := by
  have hPattern : d.fields.pattern = some o.pattern := by simpa using h.pattern
  have hStart : d.fields.start = some o.start := by simpa using h.start
  have hStop : d.fields.stop = some o.stop := by simpa using h.stop
  simp only [takeOccurrence, hPattern, hStart, hStop]

theorem addOccurrence_of_gathers {o : Occurrence} {before : Draft} (h : Gathers o before d [])
    (hLimit : before.count < limit) :
    addOccurrence limit d = .ok (atGap (withOccurrence before o) .occurrenceEnd) := by
  have hTake := takeOccurrence_of_gathers h
  obtain ⟨hRun, hFound, _, _, _⟩ := h
  have hRoom : ¬ limit ≤ d.count := by
    rw [Draft.count, hFound]
    exact Nat.not_le.mpr hLimit
  rw [addOccurrence_eq, bind_of_eq_ok hTake, if_neg hRoom]
  simp only [withOccurrence, hRun, hFound]

theorem run_element_pattern {s : String} (hGap : awaited gap = some (.element .pattern))
    (h : Padded (StringText s) t) :
    run limit (atGap d gap) (t ++ rest) =
      run limit (atGap (d.setPattern s) (.elementEnd .pattern)) rest := by
  obtain @⟨t, w, w', hw, ht, hw'⟩ := h
  rw [List.append_assoc, List.append_assoc, run_gap_blanks hw, run_string hGap ht rfl,
    run_gap_blanks hw']

theorem run_element_location {d' : Draft} {field : Field} {n : UInt64}
    (h : Padded (LocationText n) t)
    (hStore : storeNumber limit d (.element field) (.natural n.toNat) =
      .ok (d', .elementEnd field)) (hRest : Delimited rest) :
    run limit (atGap d (.nextElement field)) (t ++ rest) =
      run limit (atGap d' (.elementEnd field)) rest := by
  obtain @⟨t, w, w', hw, ht, hw'⟩ := h
  rw [List.append_assoc, List.append_assoc, run_gap_blanks hw,
    run_number rfl (readNumber_of_locationText ht) hStore (delimited_append hw' hRest),
    run_gap_blanks hw']

theorem run_occurrence {o : Occurrence} (hGap : awaited gap = some .occurrence)
    (h : OccurrenceText o t) (hFields : d.fields = {}) (hLimit : d.count < limit) :
    run limit (atGap d gap) (t ++ rest) =
      run limit (atGap (withOccurrence d o) .occurrenceEnd) rest := by
  cases h with
  | object h hPattern hStart hStop =>
    have hInv : Gathers o d d _ :=
      ⟨rfl, rfl, by rw [hFields]; exact hPattern, by rw [hFields]; exact hStart,
        by rw [hFields]; exact hStop⟩
    have hOpen : (atGap d gap).step limit (byte '\x7b') =
        .ok (atGap d (.firstMember .occurrence)) :=
      step_awaited hGap rfl (by decide)
    obtain ⟨d', hInv', hRun⟩ :=
      run_enclosed run_field (fun _ => rfl) hOpen (fun _ => rfl) rfl h hInv
    rw [hRun]
    exact run_step (addOccurrence_of_gathers hInv' hLimit)
  | @array t u v hPattern hStart hStop =>
    have hOpen : (atGap d gap).step limit (byte '[') = .ok (atGap d .firstElement) :=
      step_awaited hGap rfl (by decide)
    have hInv : Gathers o d (((d.setPattern o.pattern).setStart o.start).setStop o.stop) [] :=
      ⟨rfl, rfl, rfl, rfl, rfl⟩
    have hComma : ∀ d, (atGap d (.elementEnd .pattern)).step limit (byte ',') =
        .ok (atGap d (.nextElement .start)) := fun _ => rfl
    have hComma' : ∀ d, (atGap d (.elementEnd .start)).step limit (byte ',') =
        .ok (atGap d (.nextElement .stop)) := fun _ => rfl
    have hStoreStart : ∀ d, storeNumber limit d (.element .start) (.natural o.start.toNat) =
        .ok (d.setStart o.start, .elementEnd .start) := fun d => by
      simp only [storeNumber, locationOf_natural, Except.map]
    have hStoreStop : ∀ d, storeNumber limit d (.element .stop) (.natural o.stop.toNat) =
        .ok (d.setStop o.stop, .elementEnd .stop) := fun d => by
      simp only [storeNumber, locationOf_natural, Except.map]
    simp only [List.cons_append, List.append_assoc]
    rw [run_step hOpen, run_element_pattern rfl hPattern, run_step (hComma _),
      run_element_location hStart (hStoreStart _) (delimited_cons rfl), run_step (hComma' _),
      run_element_location hStop (hStoreStop _) (delimited_cons rfl)]
    exact run_step (addOccurrence_of_gathers hInv hLimit)

/-! ## The run over the list of occurrences -/

/-- The occurrences read so far, with those still to come, are `os`; the rest of the draft is as
before the list. -/
structure Lists (os : List Occurrence) (before d : Draft) (left : List Occurrence) : Prop where
  run : d.run = before.run
  fields : d.fields = {}
  found : ∃ done, d.found = some done ∧ done.toList ++ left = os

theorem run_listed_occurrence {os left : List Occurrence} {before : Draft} {o : Occurrence}
    (hLimit : os.length ≤ limit) (hGap : gap = .firstOccurrence ∨ gap = .nextOccurrence)
    (hInv : Lists os before d (o :: left)) (h : Padded (OccurrenceText o) t) :
    ∃ d', Lists os before d' left ∧
      run limit (atGap d gap) (t ++ rest) = run limit (atGap d' .occurrenceEnd) rest := by
  obtain ⟨hRun, hFields, done, hFound, hAll⟩ := hInv
  obtain @⟨t, w, w', hw, ht, hw'⟩ := h
  have hAwaited : awaited gap = some .occurrence := by
    rcases hGap with rfl | rfl <;> rfl
  -- There is room for this occurrence because it is one of `os`.
  have hCount : d.count < limit := by
    have hLength := congrArg List.length hAll
    simp only [List.length_append, List.length_cons, Array.length_toList] at hLength
    simp only [Draft.count, hFound, Option.getD_some]
    omega
  refine ⟨withOccurrence d o, ⟨hRun, rfl, done.push o, ?_, ?_⟩, ?_⟩
  · simp [withOccurrence, hFound]
  · simpa using hAll
  · rw [List.append_assoc, List.append_assoc, run_gap_blanks hw,
      run_occurrence hAwaited ht hFields hCount, run_gap_blanks hw']

theorem run_occurrences {os : List Occurrence} (hLimit : os.length ≤ limit)
    (hFields : d.fields = {})
    (h : Enclosed '[' ']' (fun o => Padded (OccurrenceText o)) os t) :
    run limit (atGap d (.value .occurrences)) (t ++ rest) =
      run limit (atGap { d with found := some os.toArray } (.memberEnd .file)) rest := by
  have hOpen : (atGap d (.value .occurrences)).step limit (byte '[') =
      .ok (atGap { d with found := some #[] } .firstOccurrence) := rfl
  have hInv : Lists os d { d with found := some #[] } os :=
    ⟨rfl, hFields, #[], rfl, rfl⟩
  obtain ⟨d', ⟨hRun, hFields', done, hFound, hAll⟩, hReader⟩ :=
    run_enclosed (fun hGap (hInv : Lists os d _ (_ :: _)) h _ =>
      run_listed_occurrence hLimit hGap hInv h) (fun _ => rfl) hOpen (fun _ => rfl) rfl h hInv
  have hDone : done = os.toArray := by
    rw [← hAll, List.append_nil, Array.toArray_toList]
  have hDraft : d' = { d with found := some os.toArray } := by
    obtain ⟨run, found, fields⟩ := d'
    cases hRun
    cases hFound
    cases hFields'
    rw [hDone, hFields]
  rw [hReader, hDraft]
  exact run_step rfl

/-! ## The run over a file -/

theorem keyGap_text (key : TextKey) :
    keyGap d .file key.name = .colon .file (some (.text key)) := by
  cases key <;> simp [keyGap, TextKey.name]

theorem keyGap_time (key : TimeKey) :
    keyGap d .file key.name = .colon .file (some (.time key)) := by
  cases key <;> simp [keyGap, TimeKey.name]

theorem keyGap_occurrences (h : d.found = none) :
    keyGap d .file "matches" = .colon .file (some .occurrences) := by
  simp [keyGap, h]

theorem keyGap_not_file {key : String} (h : key ∉ fileKeys) :
    keyGap d .file key = .colon .file none := by
  simp only [fileKeys, TextKey.name, TimeKey.name, List.mem_cons, List.not_mem_nil, or_false,
    not_or] at h
  simp [keyGap, h]

theorem timeText_iff {x : Float} : TimeText x t ↔ ∃ n, readNumber t = .ok n ∧ timeOf n = x := by
  constructor
  · intro h
    rcases readNumber_of_numberText h.form with hHuge | ⟨n, hn⟩
    · exact absurd hHuge h.inRange
    · exact ⟨n, hn, h.value n hn⟩
  · rintro ⟨n, hn, rfl⟩
    refine ⟨numberText_of_readNumber hn, ?_, ?_⟩
    · rw [hn]
      exact nofun
    · intro m hm
      rw [hn] at hm
      cases hm
      rfl

/-- What has been read, with the members still to come, tells of the run `r` and of the one list
`os`. -/
structure Tells (r : RunInfo) (os : List Occurrence) (d : Draft) (entries : List Entry) :
    Prop where
  run : tellRun d.run entries = r
  fields : d.fields = {}
  found : (d.found.map Array.toList).toList ++ entries.filterMap Entry.occurrences? = [os]

theorem tellRun_setText (d : Draft) (key : TextKey) (s : String) (entries : List Entry) :
    tellRun (d.setText key s).run entries = tellRun d.run (.text key s :: entries) := by
  cases key <;>
    simp only [tellRun, Draft.setText, List.filterMap_cons, Entry.text?, Entry.time?,
      List.getLastD_cons, reduceCtorEq, reduceIte]

theorem tellRun_setTime (d : Draft) (key : TimeKey) (x : Float) (entries : List Entry) :
    tellRun (d.setTime key x).run entries = tellRun d.run (.time key x :: entries) := by
  cases key <;>
    simp only [tellRun, Draft.setTime, List.filterMap_cons, Entry.text?, Entry.time?,
      List.getLastD_cons, reduceCtorEq, reduceIte]

theorem run_entry {r : RunInfo} {os : List Occurrence} {e : Entry} {entries : List Entry}
    (hLimit : os.length ≤ limit) (hGap : BeforeMember .file gap)
    (hInv : Tells r os d (e :: entries)) (h : EntryText e t) (hRest : Delimited rest) :
    ∃ d', Tells r os d' entries ∧
      run limit (atGap d gap) (t ++ rest) = run limit (atGap d' (.memberEnd .file)) rest := by
  obtain ⟨hRun, hFields, hFound⟩ := hInv
  cases h with
  | @text key s _ h =>
    refine ⟨d.setText key s, ⟨?_, ?_, ?_⟩, ?_⟩
    · rw [tellRun_setText, hRun]
    · cases key <;> exact hFields
    · cases key <;> exact hFound
    · refine run_member hGap h (keyGap_text key) ?_ hRest
      intro w v rest hw hv _
      exact (run_gap_blanks hw).trans (run_string rfl hv rfl)
  | @time key x _ h =>
    refine ⟨d.setTime key x, ⟨?_, ?_, ?_⟩, ?_⟩
    · rw [tellRun_setTime, hRun]
    · cases key <;> exact hFields
    · cases key <;> exact hFound
    · refine run_member hGap h (keyGap_time key) ?_ hRest
      intro w v rest hw hv hRest
      obtain ⟨n, hn, rfl⟩ := timeText_iff.mp hv
      exact (run_gap_blanks hw).trans (run_number rfl hn rfl hRest)
  | @occurrences os' _ h =>
    -- As with a field: the list is still to come, so it has not been there.
    have hNone : d.found.map Array.toList = none := eq_none_of_toList_append hFound
    rw [hNone] at hFound
    have hSame : os' = os := List.head_eq_of_cons_eq hFound
    subst hSame
    refine ⟨{ d with found := some os'.toArray }, ⟨hRun, hFields, hFound⟩, ?_⟩
    refine run_member hGap h (keyGap_occurrences (Option.map_eq_none_iff.mp hNone)) ?_ hRest
    intro w v rest hw hv _
    exact (run_gap_blanks hw).trans (run_occurrences hLimit hFields hv)
  | other hKey h =>
    refine ⟨d, ⟨hRun, hFields, hFound⟩, ?_⟩
    exact run_other_member hGap h (keyGap_not_file hKey) hRest

end Reader

/-! ## Reading a rendering -/

theorem parse_of_fileText {limit : Nat} {entries : List Entry} {os : List Occurrence}
    {t : List UInt8} (h : FileText entries t)
    (hMatches : entries.filterMap Entry.occurrences? = [os]) (hLimit : os.length ≤ limit) :
    parse limit (.ofBytes t) = .ok ⟨tellRun {} entries, os⟩ := by
  obtain @⟨t, w, w', hw, ht, hw'⟩ := h
  have hOpen : Reader.start.step limit (byte '\x7b') =
      .ok (Reader.atGap {} (.firstMember .file)) := rfl
  have hInv : Reader.Tells (tellRun {} entries) os {} entries := ⟨rfl, rfl, hMatches⟩
  obtain ⟨d, ⟨hRun, _, hFound⟩, hReader⟩ : ∃ d, Reader.Tells (tellRun {} entries) os d [] ∧
      Reader.run limit .start (t ++ w') =
        Reader.run limit (.atGap d (.memberEnd .file)) (byte '\x7d' :: w') :=
    Reader.run_enclosed (Reader.run_entry hLimit) (fun _ => rfl) hOpen (fun _ => rfl) rfl ht hInv
  obtain ⟨found, hSome, hList⟩ : ∃ found, d.found = some found ∧ found.toList = os := by
    simpa using hFound
  have hClose : (Reader.atGap d (.memberEnd .file)).step limit (byte '\x7d') =
      .ok (Reader.atGap d .finished) := by
    change Reader.closeObject limit d .file = _
    simp only [Reader.closeObject, hSome]
  have hEnd : Reader.run limit (.atGap d .finished) w' = .ok (.atGap d .finished) :=
    (Reader.run_finished limit d w').trans (if_pos hw')
  refine parse_eq_ok_iff.mpr ⟨rfl, d, ?_, ?_⟩
  · calc Reader.run limit .start (w ++ (t ++ w'))
        = Reader.run limit .start (t ++ w') := Reader.run_gap_blanks hw
      _ = Reader.run limit (.atGap d (.memberEnd .file)) (byte '\x7d' :: w') := hReader
      _ = Reader.run limit (.atGap d .finished) w' := Reader.run_step hClose
      _ = .ok (.atGap d .finished) := hEnd
  · simp only [Draft.file, hSome, Option.getD_some, hList]
    exact congrArg (MatchFile.mk · os) hRun

/-- However a match file is written, it is read as what it says, if it holds one list of occurrences
that is not too long and names a pattern in each of them. -/
theorem read_of_fileText {limit : Nat} {entries : List Entry} {os : List Occurrence}
    {t : List UInt8} (hText : FileText entries t)
    (hMatches : entries.filterMap Entry.occurrences? = [os]) (hLimit : os.length ≤ limit)
    (hNamed : ∀ o ∈ os, Text.allBlank o.pattern = false) :
    read limit (.ofBytes t) = .ok ⟨tellRun {} entries, os⟩ :=
  read_eq_ok_iff.mpr ⟨parse_of_fileText hText hMatches hLimit, hNamed⟩

/-- A file in an odd layout: a key and a name are spelled with codes, an occurrence is an array,
other members stand in between, and a time is told twice. -/
def oddText : List UInt8 :=
  Utf8.encode ("\n\x7b\"note\":[null,\x7b\"\\ud800\":-1.5e3\x7d],\"\\u006datches\":" ++
    "[[\"\\ud83d\\ude00\", 0,18446744073709551615],\x7b\"endEA\":2,\"x\":true," ++
    "\"patternName\":\"b\",\"startEA\":1\x7d],\"cpuTime\":3,\"cpuTime\" :4\x7d ")

def oddOccurrences : List Occurrence :=
  [⟨"😀", 0, 18446744073709551615⟩, ⟨"b", 1, 2⟩]

def oddEntries : List Entry :=
  [.other, .occurrences oddOccurrences, .time .cpu 3, .time .cpu 4]

theorem partText_oddNote :
    PartText .value (Utf8.encode "[null,\x7b\"\\ud800\":-1.5e3\x7d]") := by
  have hNumber : NumberText
      (byte '-' :: ([byte '1'] ++ [byte '.', byte '5'] ++ [byte 'e', byte '3'])) :=
    .negative (.digits rfl (by decide) (by decide)) (.digits rfl (by decide))
      (.digits (.inl rfl) (.inl rfl) rfl (by decide))
  -- This code is half of a pair, so the key stands for no text.
  have hCode : HexCode 0xd800 [byte 'd', byte '8', byte '0', byte '0'] :=
    .four (.lower (v := 13) (by decide)) (.lower (v := 8) (by decide)) (.lower (v := 0) (by decide))
      (.lower (v := 0) (by decide))
  have hMember := PartText.member blanks_nil (.code hCode .nil) blanks_nil
    (.item blanks_nil (.number hNumber) blanks_nil)
  exact PartText.array (.moreItems (.item blanks_nil .null blanks_nil)
    (.lastItem (.item blanks_nil (.object (.lastMember hMember)) blanks_nil)))

theorem stringText_oddKey : StringText "matches" (Utf8.encode "\"\\u006datches\"") := by
  have hCode : HexCode 'm'.toNat [byte '0', byte '0', byte '6', byte 'd'] :=
    .four (.lower (v := 0) (by decide)) (.lower (v := 0) (by decide)) (.lower (v := 6) (by decide))
      (.lower (v := 13) (by decide))
  have hChars : CharsText "matches".toList _ :=
    .cons (.code hCode) (charsText_escapeChar "atches".toList)
  exact .quoted hChars

theorem stringText_oddName : StringText "😀" (Utf8.encode "\"\\ud83d\\ude00\"") := by
  have hHigh : HexCode (0xd800 + 0x3d) [byte 'd', byte '8', byte '3', byte 'd'] :=
    .four (.lower (v := 13) (by decide)) (.lower (v := 8) (by decide)) (.lower (v := 3) (by decide))
      (.lower (v := 13) (by decide))
  have hLow : HexCode (0xdc00 + 0x200) [byte 'd', byte 'e', byte '0', byte '0'] :=
    .four (.lower (v := 13) (by decide)) (.lower (v := 14) (by decide))
      (.lower (v := 0) (by decide)) (.lower (v := 0) (by decide))
  have hChar : '😀'.toNat = 0x10000 + 0x400 * 0x3d + 0x200 := rfl
  have hChars : CharsText "😀".toList _ :=
    .cons (.pair hHigh hLow (by decide) (by decide) hChar) .nil
  exact .quoted hChars

theorem fileText_oddText : FileText oddEntries oddText := by
  have hSpace : Blanks [byte ' '] := by decide
  have hLine : Blanks [byte '\n'] := by decide
  have hTrue : PartText .value (Utf8.encode "true") := .true
  have hThree : TimeText 3 (Utf8.encode "3") :=
    Reader.timeText_iff.mpr ⟨.natural 3, rfl, by decide +kernel⟩
  have hFour : TimeText 4 (Utf8.encode "4") :=
    Reader.timeText_iff.mpr ⟨.natural 4, rfl, by decide +kernel⟩
  have hFirst : OccurrenceText ⟨"😀", 0, 18446744073709551615⟩ _ :=
    .array (.of stringText_oddName) (.mk hSpace (locationText_repr 0) blanks_nil)
      (.of (locationText_repr 18446744073709551615))
  have hFields : Enclosed '\x7b' '\x7d' FieldText [.stop 2, .other, .pattern "b", .start 1] _ :=
    .items (.more (.stop (memberText_of (locationText_repr 2)))
      (.more (.other (by decide) (memberText_of hTrue : MemberText "x" _ _))
      (.more (.pattern (memberText_of (stringText_quote "b")))
      (.last (.start (memberText_of (locationText_repr 1)))))))
  have hSecond : OccurrenceText ⟨"b", 1, 2⟩ _ := .object hFields rfl rfl rfl
  have hOccurrences : Enclosed '[' ']' (fun o => Padded (OccurrenceText o)) oddOccurrences _ :=
    .items (.more (.of hFirst) (.last (.of hSecond)))
  have hEntries : Enclosed '\x7b' '\x7d' EntryText oddEntries _ :=
    .items (.more (.other (by decide) (memberText_of partText_oddNote : MemberText "note" _ _))
      (.more (.occurrences (.mk (.of stringText_oddKey) (.of hOccurrences)))
      (.more (.time (memberText_of hThree))
      (.last (.time (.mk (.mk blanks_nil (stringText_quote "cpuTime") hSpace) (.of hFour)))))))
  have hText := Padded.mk hLine hEntries hSpace
  exact (congrArg (FileText oddEntries) (by decide +kernel)).mp hText

theorem read_oddText :
    FileText oddEntries oddText ∧ oddEntries.filterMap Entry.occurrences? = [oddOccurrences] ∧
      oddOccurrences.length ≤ 2 ∧ (∀ o ∈ oddOccurrences, Text.allBlank o.pattern = false) ∧
      read 2 (.ofBytes oddText) = .ok ⟨{ cpuTime := 4 }, oddOccurrences⟩ := by
  have hNamed : ∀ o ∈ oddOccurrences, Text.allBlank o.pattern = false := by decide +kernel
  exact ⟨fileText_oddText, rfl, by decide, hNamed,
    read_of_fileText fileText_oddText rfl (by decide) hNamed⟩

end PatternAudit.MatchFile
