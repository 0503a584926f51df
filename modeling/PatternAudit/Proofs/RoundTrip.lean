import PatternAudit.Encoding
import PatternAudit.Proofs.Rendering
import PatternAudit.Proofs.WrittenText

/-!
# A match file that is written is read back

The text that is written for a match file is one of its renderings (`fileText_compact`), so it is
read as this file (`read_compact`). Nothing is asked of the strings and locations in it. That the
text of a time is read as this time is a fact about the digits of doubles (`ReadsBack`); a number
that is not finite has no text.
-/

namespace PatternAudit

open Json

/-! ## Values without blanks -/

theorem encode_compact_array (items : List Json) :
    Utf8.encode (Json.array items).compact =
      byte '[' :: (Utf8.encode (",".intercalate (items.map compact)) ++ [byte ']']) := by
  rw [compact, Utf8.encode_append, Utf8.encode_append]
  rfl

theorem encode_compact_object (members : List (String × Json)) :
    Utf8.encode (Json.object members).compact =
      byte '\x7b' :: (Utf8.encode (",".intercalate
        (members.map fun m => quote m.1 ++ ":" ++ m.2.compact)) ++ [byte '\x7d']) := by
  rw [compact, Utf8.encode_append, Utf8.encode_append]
  rfl

theorem stringText_compact (s : String) : StringText s (Utf8.encode (Json.string s).compact) := by
  rw [compact]
  exact stringText_quote s

theorem locationText_compact (n : UInt64) :
    LocationText n (Utf8.encode (Json.natural n.toNat).compact) := by
  rw [compact]
  exact locationText_repr n

namespace MatchFile

/-! ## Occurrences -/

theorem occurrenceText_compact (o : Occurrence) :
    OccurrenceText o (Utf8.encode o.toJson.compact) := by
  rw [Occurrence.toJson, encode_compact_object]
  suffices h : Enclosed '\x7b' '\x7d' FieldText
      [.pattern o.pattern, .start o.start, .stop o.stop] _ from .object h rfl rfl rfl
  refine enclosed_of_forall₂ (.cons ?_ (.cons ?_ (.cons ?_ .nil)))
  · exact .pattern (memberText_of (stringText_compact o.pattern))
  · exact .start (memberText_of (locationText_compact o.start))
  · exact .stop (memberText_of (locationText_compact o.stop))

theorem occurrencesText_compact (os : List Occurrence) :
    Enclosed '[' ']' (fun o => Padded (OccurrenceText o)) os
      (Utf8.encode (occurrencesToJson os).compact) := by
  rw [occurrencesToJson, encode_compact_array, List.map_map]
  refine enclosed_of_forall₂ ?_
  rw [List.forall₂_map_right_iff, List.forall₂_same]
  exact fun o _ => .of (occurrenceText_compact o)

/-! ## Files -/

/-- The text of a time is read as this time. -/
def ReadsBack (x : Float) : Prop :=
  (readNumber (Utf8.encode (floatText x))).map Reader.timeOf = .ok x

theorem timeText_compact {x : Float} (h : ReadsBack x) :
    TimeText x (Utf8.encode (Json.float x).compact) := by
  rw [compact]
  unfold ReadsBack at h
  cases hRead : readNumber (Utf8.encode (floatText x)) with
  | error e =>
    rw [hRead] at h
    cases h
  | ok n =>
    rw [hRead] at h
    exact Reader.timeText_iff.mpr ⟨n, hRead, Except.ok.inj h⟩

/-- The members of a match file as it is written. -/
def writtenEntries (f : MatchFile) : List Entry :=
  [.text .executable f.run.executable, .text .matcher f.run.matcher,
    .text .architecture f.run.architecture, .time .real f.run.realTime, .time .cpu f.run.cpuTime,
    .occurrences f.found]

theorem fileText_compact {f : MatchFile} (hReal : ReadsBack f.run.realTime)
    (hCpu : ReadsBack f.run.cpuTime) :
    FileText (writtenEntries f) (Utf8.encode f.toJson.compact) := by
  rw [MatchFile.toJson, encode_compact_object]
  refine .of (enclosed_of_forall₂ ?_)
  refine .cons ?_ (.cons ?_ (.cons ?_ (.cons ?_ (.cons ?_ (.cons ?_ .nil)))))
  · exact .text (memberText_of (stringText_compact f.run.executable))
  · exact .text (memberText_of (stringText_compact f.run.matcher))
  · exact .text (memberText_of (stringText_compact f.run.architecture))
  · exact .time (memberText_of (timeText_compact hReal))
  · exact .time (memberText_of (timeText_compact hCpu))
  · exact .occurrences (memberText_of (occurrencesText_compact f.found))

/-- A match file is read back from its text, whatever characters and locations it holds. -/
theorem read_compact {limit : Nat} {f : MatchFile} (hReal : ReadsBack f.run.realTime)
    (hCpu : ReadsBack f.run.cpuTime) (hLimit : f.found.length ≤ limit)
    (hNamed : ∀ o ∈ f.found, Text.allBlank o.pattern = false) :
    read limit (.ofBytes (Utf8.encode f.toJson.compact)) = .ok f := by
  have hParse := parse_of_fileText (fileText_compact hReal hCpu) rfl hLimit
  exact read_eq_ok_iff.mpr ⟨hParse, hNamed⟩

/-- A file with all kinds of characters and the greatest location. -/
def oddFile : MatchFile where
  run :=
    { executable := "C:\\tools\\\"x\".exe"
      matcher := "\u0001\n\t\u007f"
      architecture := "größe/𝄞"
      realTime := 0.5
      cpuTime := 12 }
  found := [⟨"\ud7ff\"", 18446744073709551615, 0⟩, ⟨" 😀\\u0041", 7, 10⟩]

theorem read_compact_oddFile :
    ReadsBack oddFile.run.realTime ∧ ReadsBack oddFile.run.cpuTime ∧ oddFile.found.length ≤ 2 ∧
      (∀ o ∈ oddFile.found, Text.allBlank o.pattern = false) ∧
      read 2 (.ofBytes (Utf8.encode oddFile.toJson.compact)) = .ok oddFile := by
  have hReal : ReadsBack oddFile.run.realTime := by unfold ReadsBack; decide +kernel
  have hCpu : ReadsBack oddFile.run.cpuTime := by unfold ReadsBack; decide +kernel
  have hNamed : ∀ o ∈ oddFile.found, Text.allBlank o.pattern = false := by decide +kernel
  exact ⟨hReal, hCpu, by decide, hNamed, read_compact hReal hCpu (by decide) hNamed⟩

end MatchFile

end PatternAudit
