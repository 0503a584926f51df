import Std.Data.String.ToNat
import PatternAudit.Proofs.StringScan
import PatternAudit.Proofs.WrittenText
import PatternAudit.Report.FrequencyTable

/-!
# Tables of records are read back

Delimited records have a simple reader: a field ends at the delimiter, a record at a line feed, and
a field that begins with a quote ends at the quote that closes it, where two quotes in a row stand
for one. `RecordReader` is this reader, fed with bytes.

A field is written in quotes exactly if it holds something that the reader would take for the end of
the field or for a quote. So the reader comes back from every field with its text, whatever is in it
(`steps_writeField`), and from there on records (`steps_writeRecord`) and tables
(`readRecords_writeRecords`) follow. Whether to quote is decided by characters, but what the reader
sees is bytes; the two agree because no byte of a longer character is an ASCII byte
(`Utf8.eq_of_byte_mem`).
-/

namespace PatternAudit.Report

open Json (Steps byte)
open Utf8 (byte_ne_byte eq_of_byte_mem utf8EncodeChar_ascii)

/-! ## Reading records -/

/-- Where the reader stands in a field, with the bytes of the field so far. -/
inductive FieldScan
  | start
  | plain (bytes : List UInt8)
  | quoted (bytes : List UInt8)
  /-- After a quote inside quotes, which is the first of two or closes the field. -/
  | closing (bytes : List UInt8)

/-- The records before this one, the fields before this one in the record, and the field. -/
structure RecordReader where
  records : List (List String)
  fields : List String
  scan : FieldScan

namespace RecordReader

def start : RecordReader := ⟨[], [], .start⟩

/-- The field ends with the byte `b`. -/
def endField (delimiter : Char) (r : RecordReader) (bytes : List UInt8) (b : UInt8) :
    Option RecordReader :=
  (Utf8.decode bytes).toOption.bind fun field =>
    if b = byte delimiter then some ⟨r.records, r.fields ++ [field], .start⟩
    else if b = byte '\n' then some ⟨r.records ++ [r.fields ++ [field]], [], .start⟩
    else none

/-- The step in a field without quotes. -/
def stepPlain (delimiter : Char) (r : RecordReader) (bytes : List UInt8) (b : UInt8) :
    Option RecordReader :=
  if b = byte delimiter ∨ b = byte '\n' then r.endField delimiter bytes b
  else some { r with scan := .plain (bytes ++ [b]) }

def step (delimiter : Char) (r : RecordReader) (b : UInt8) : Option RecordReader :=
  match r.scan with
  | .start =>
    if b = byte '"' then some { r with scan := .quoted [] } else r.stepPlain delimiter [] b
  | .plain bytes => r.stepPlain delimiter bytes b
  | .quoted bytes =>
    if b = byte '"' then some { r with scan := .closing bytes }
    else some { r with scan := .quoted (bytes ++ [b]) }
  | .closing bytes =>
    if b = byte '"' then some { r with scan := .quoted (bytes ++ [b]) }
    else r.endField delimiter bytes b

end RecordReader

/-- The records of some bytes, the last of which must be ended like the others. -/
def readRecords (delimiter : Char) (bytes : List UInt8) : Option (List (List String)) :=
  match bytes.foldlM (RecordReader.step delimiter) .start with
  | some ⟨records, [], .start⟩ => some records
  | _ => none

/-- The row that a record of two fields stands for. -/
def rowOfRecord? : List String → Option FrequencyRow
  | [name, count] => count.toNat?.map fun n => (name, n)
  | _ => none

/-! ## Fields -/

/-- A character that can delimit fields. -/
structure IsDelimiter (c : Char) : Prop where
  ascii : c.toNat < 0x80
  ne_quote : c ≠ '"'
  ne_line : c ≠ '\n'

namespace RecordReader

def Next (delimiter : Char) (r : RecordReader) (b : UInt8) (r' : RecordReader) : Prop :=
  r.step delimiter b = some r'

theorem foldlM_of_steps {delimiter : Char} {r r' : RecordReader} {t : List UInt8}
    (h : Steps (Next delimiter) r t r') : t.foldlM (step delimiter) r = some r' := by
  induction h with
  | nil r => rfl
  | cons hStep _ ih =>
    rw [List.foldlM_cons, hStep]
    exact ih

section

variable {delimiter : Char} (records : List (List String)) (fields : List String)

/-- Bytes that only add to the field. -/
theorem steps_gather {scan : List UInt8 → FieldScan} {t : List UInt8}
    (h : ∀ b ∈ t, ∀ bytes, Next delimiter ⟨records, fields, scan bytes⟩ b
      ⟨records, fields, scan (bytes ++ [b])⟩) (bytes : List UInt8) :
    Steps (Next delimiter) ⟨records, fields, scan bytes⟩ t
      ⟨records, fields, scan (bytes ++ t)⟩ := by
  induction t generalizing bytes with
  | nil =>
    rw [List.append_nil]
    exact .nil _
  | cons b t ih =>
    have hStep := h b List.mem_cons_self bytes
    have hRest := ih (fun c hc => h c (List.mem_cons_of_mem b hc)) (bytes ++ [b])
    rw [List.append_assoc] at hRest
    exact .cons hStep hRest

theorem steps_plain {t : List UInt8} (h : ∀ b ∈ t, b ≠ byte delimiter ∧ b ≠ byte '\n')
    (bytes : List UInt8) :
    Steps (Next delimiter) ⟨records, fields, .plain bytes⟩ t
      ⟨records, fields, .plain (bytes ++ t)⟩ := by
  have hNext : ∀ b ∈ t, ∀ bytes, Next delimiter ⟨records, fields, .plain bytes⟩ b
      ⟨records, fields, .plain (bytes ++ [b])⟩ :=
    fun b hb _ => if_neg (not_or.mpr (h b hb))
  exact steps_gather records fields hNext bytes

theorem steps_quoted {t : List UInt8} (h : ∀ b ∈ t, b ≠ byte '"') (bytes : List UInt8) :
    Steps (Next delimiter) ⟨records, fields, .quoted bytes⟩ t
      ⟨records, fields, .quoted (bytes ++ t)⟩ := by
  have hNext : ∀ b ∈ t, ∀ bytes, Next delimiter ⟨records, fields, .quoted bytes⟩ b
      ⟨records, fields, .quoted (bytes ++ [b])⟩ :=
    fun b hb _ => if_neg (h b hb)
  exact steps_gather records fields hNext bytes

/-- Inside quotes every character is read as itself, a quote by way of two. -/
theorem steps_doubleQuotes (cs : List Char) (bytes : List UInt8) :
    Steps (Next delimiter) ⟨records, fields, .quoted bytes⟩
      (Utf8.encode (String.join (cs.map fun c => if c = '"' then "\"\"" else c.toString)))
      ⟨records, fields, .quoted (bytes ++ cs.flatMap String.utf8EncodeChar)⟩ := by
  induction cs generalizing bytes with
  | nil =>
    rw [List.flatMap_nil, List.append_nil]
    exact .nil _
  | cons c cs ih =>
    have hChar : Steps (Next delimiter) ⟨records, fields, .quoted bytes⟩
        (Utf8.encode (if c = '"' then "\"\"" else c.toString))
        ⟨records, fields, .quoted (bytes ++ String.utf8EncodeChar c)⟩ := by
      split_ifs with hQuote
      · subst hQuote
        exact .cons rfl (.cons rfl (.nil _))
      · rw [Json.encode_toString]
        refine steps_quoted records fields ?_ bytes
        rintro b hb rfl
        exact hQuote (eq_of_byte_mem (by decide) hb)
    rw [List.map_cons, Utf8.encode_join_cons, List.flatMap_cons, ← List.append_assoc]
    exact hChar.append (ih _)

theorem endField_encode (r : RecordReader) (field : String) (b : UInt8) :
    r.endField delimiter (Utf8.encode field) b =
      if b = byte delimiter then some ⟨r.records, r.fields ++ [field], .start⟩
      else if b = byte '\n' then some ⟨r.records ++ [r.fields ++ [field]], [], .start⟩
      else none := by
  rw [endField, Utf8.decode_encode]
  rfl

variable (hDelimiter : IsDelimiter delimiter)

include hDelimiter

theorem ne_quote_of_ends {b : UInt8} (hb : b = byte delimiter ∨ b = byte '\n') :
    b ≠ byte '"' := by
  rcases hb with rfl | rfl
  · exact byte_ne_byte hDelimiter.ascii (by decide) hDelimiter.ne_quote
  · decide

/-- A field that is written without quotes has nothing in it that ends a field or begins one in
quotes. -/
theorem ordinary_of_not_needsQuotes {field : String} (h : needsQuotes delimiter field = false) :
    ∀ b ∈ Utf8.encode field, (b ≠ byte delimiter ∧ b ≠ byte '\n') ∧ b ≠ byte '"' := by
  intro b hb
  rw [Utf8.encode_eq_flatMap] at hb
  obtain ⟨c, hc, hb⟩ := List.mem_flatMap.mp hb
  have hOrdinary : c ≠ delimiter ∧ c ≠ '"' ∧ c ≠ '\r' ∧ c ≠ '\n' := by
    have hNot := List.any_eq_false.mp h c hc
    simpa [and_assoc] using hNot
  obtain ⟨hNotDelimiter, hNotQuote, _, hNotLine⟩ := hOrdinary
  refine ⟨⟨?_, ?_⟩, ?_⟩
  · rintro rfl
    exact hNotDelimiter (eq_of_byte_mem hDelimiter.ascii hb)
  · rintro rfl
    exact hNotLine (eq_of_byte_mem (by decide) hb)
  · rintro rfl
    exact hNotQuote (eq_of_byte_mem (by decide) hb)

theorem steps_unquoted {t : List UInt8}
    (h : ∀ b ∈ t, (b ≠ byte delimiter ∧ b ≠ byte '\n') ∧ b ≠ byte '"') {b : UInt8}
    (hb : b = byte delimiter ∨ b = byte '\n') {r' : RecordReader}
    (hEnd : endField delimiter ⟨records, fields, .start⟩ t b = some r') :
    Steps (Next delimiter) ⟨records, fields, .start⟩ (t ++ [b]) r' := by
  have hQuote := ne_quote_of_ends hDelimiter hb
  cases t with
  | nil =>
    have hLast : Next delimiter ⟨records, fields, .start⟩ b r' :=
      (if_neg hQuote).trans ((if_pos hb).trans hEnd)
    exact .cons hLast (.nil _)
  | cons first t =>
    obtain ⟨hFirst, hNotQuote⟩ := h first List.mem_cons_self
    have hStart : Next delimiter ⟨records, fields, .start⟩ first
        ⟨records, fields, .plain [first]⟩ :=
      (if_neg hNotQuote).trans (if_neg (not_or.mpr hFirst))
    have hMore : Steps (Next delimiter) ⟨records, fields, .plain [first]⟩ t
        ⟨records, fields, .plain (first :: t)⟩ :=
      steps_plain records fields (fun c hc => (h c (List.mem_cons_of_mem first hc)).1) [first]
    have hLast : Next delimiter ⟨records, fields, .plain (first :: t)⟩ b r' :=
      (if_pos hb).trans hEnd
    exact .cons hStart (hMore.append (.cons hLast (.nil _)))

theorem steps_writeField (field : String) {b : UInt8} (hb : b = byte delimiter ∨ b = byte '\n')
    {r' : RecordReader}
    (hEnd : endField delimiter ⟨records, fields, .start⟩ (Utf8.encode field) b = some r') :
    Steps (Next delimiter) ⟨records, fields, .start⟩
      (Utf8.encode (writeField delimiter field) ++ [b]) r' := by
  unfold writeField
  split_ifs with hNeeds
  · have hQuotes : Utf8.encode ("\"" ++ doubleQuotes field ++ "\"") =
        byte '"' :: (Utf8.encode (doubleQuotes field) ++ [byte '"']) := by
      rw [Utf8.encode_append, Utf8.encode_append]
      rfl
    have hInside : Steps (Next delimiter) ⟨records, fields, .quoted []⟩
        (Utf8.encode (doubleQuotes field)) ⟨records, fields, .quoted (Utf8.encode field)⟩ := by
      rw [Utf8.encode_eq_flatMap field]
      exact steps_doubleQuotes records fields field.toList []
    have hLast : Next delimiter ⟨records, fields, .closing (Utf8.encode field)⟩ b r' :=
      (if_neg (ne_quote_of_ends hDelimiter hb)).trans hEnd
    rw [hQuotes, List.cons_append, List.append_assoc]
    exact .cons rfl (hInside.append (.cons rfl (.cons hLast (.nil _))))
  · have hOrdinary := ordinary_of_not_needsQuotes hDelimiter (by simpa using hNeeds)
    exact steps_unquoted records fields hDelimiter hOrdinary hb hEnd

/-! ## Records and tables -/

theorem steps_writeRecord (field : String) (more : List String) :
    Steps (Next delimiter) ⟨records, fields, .start⟩
      (Utf8.encode (writeRecord delimiter (field :: more)))
      ⟨records ++ [fields ++ field :: more], [], .start⟩ := by
  induction more generalizing field fields with
  | nil =>
    have hEnd : endField delimiter ⟨records, fields, .start⟩ (Utf8.encode field) (byte '\n') =
        some ⟨records ++ [fields ++ [field]], [], .start⟩ := by
      rw [endField_encode, if_neg, if_pos rfl]
      exact (byte_ne_byte hDelimiter.ascii (by decide) hDelimiter.ne_line).symm
    have hField := steps_writeField records fields hDelimiter field (.inr rfl) hEnd
    rwa [writeRecord, line, List.map_singleton, String.intercalate_singleton, Utf8.encode_append]
  | cons next more ih =>
    have hEnd : endField delimiter ⟨records, fields, .start⟩ (Utf8.encode field)
        (byte delimiter) = some ⟨records, fields ++ [field], .start⟩ := by
      rw [endField_encode, if_pos rfl]
    have hField := steps_writeField records fields hDelimiter field (.inl rfl) hEnd
    have hRest := ih (fields ++ [field]) next
    rw [List.append_assoc] at hRest
    have hText : Utf8.encode (writeRecord delimiter (field :: next :: more)) =
        Utf8.encode (writeField delimiter field) ++ [byte delimiter] ++
          Utf8.encode (writeRecord delimiter (next :: more)) := by
      simp only [writeRecord, line, List.map_cons, String.intercalate_cons_cons,
        Utf8.encode_append, Json.encode_toString, List.append_assoc]
      rw [utf8EncodeChar_ascii hDelimiter.ascii]
    rw [hText]
    exact hField.append hRest

/-- Tables of records that have at least one field each. -/
theorem steps_writeRecords {table : List (List String)} (h : ∀ record ∈ table, record ≠ []) :
    Steps (Next delimiter) ⟨records, [], .start⟩
      (Utf8.encode (String.join (table.map (writeRecord delimiter))))
      ⟨records ++ table, [], .start⟩ := by
  induction table generalizing records with
  | nil =>
    rw [List.append_nil]
    exact .nil _
  | cons record table ih =>
    obtain ⟨field, more, rfl⟩ := List.exists_cons_of_ne_nil (h record List.mem_cons_self)
    have hRecord := steps_writeRecord records [] hDelimiter field more
    have hRest := ih (records ++ [field :: more]) fun r hr => h r (List.mem_cons_of_mem _ hr)
    rw [List.append_assoc] at hRest
    rw [List.map_cons, Utf8.encode_join_cons]
    exact hRecord.append hRest

end

end RecordReader

theorem readRecords_writeRecords {delimiter : Char} (hDelimiter : IsDelimiter delimiter)
    {table : List (List String)} (h : ∀ record ∈ table, record ≠ []) :
    readRecords delimiter (Utf8.encode (String.join (table.map (writeRecord delimiter)))) =
      some table := by
  have hSteps := RecordReader.steps_writeRecords [] hDelimiter h
  unfold readRecords
  rw [RecordReader.start, RecordReader.foldlM_of_steps hSteps]
  rfl

theorem mapM_rowOfRecord? (rows : List FrequencyRow) :
    (rows.map fun row => [row.1, row.2.repr]).mapM rowOfRecord? = some rows := by
  induction rows with
  | nil => rfl
  | cons row rows ih =>
    have hRow : rowOfRecord? [row.1, row.2.repr] = some row := by
      rw [rowOfRecord?, Nat.toNat?_repr]
      rfl
    rw [List.map_cons, List.mapM_cons, hRow, ih]
    rfl

/-- The bytes of a frequency table are read back as the header and one record for each row in
order, and these records stand for the rows of the table. The names may have any characters. -/
theorem readRecords_frequencyRecords {delimiter : Char} (h : delimiter = ',' ∨ delimiter = '\t')
    (rows : List FrequencyRow) :
    readRecords delimiter (Utf8.encode (frequencyRecords delimiter rows)) =
        some (["pattern", "count"] :: rows.map fun row => [row.1, row.2.repr]) ∧
      (rows.map fun row => [row.1, row.2.repr]).mapM rowOfRecord? = some rows := by
  have hDelimiter : IsDelimiter delimiter := by
    rcases h with rfl | rfl
    · exact ⟨by decide, by decide, by decide⟩
    · exact ⟨by decide, by decide, by decide⟩
  have hNonempty : ∀ record ∈ ["pattern", "count"] :: rows.map fun row => [row.1, row.2.repr],
      record ≠ [] := by
    rw [List.forall_mem_cons, List.forall_mem_map]
    exact ⟨List.cons_ne_nil _ _, fun _ _ => List.cons_ne_nil _ _⟩
  exact ⟨readRecords_writeRecords hDelimiter hNonempty, mapM_rowOfRecord? rows⟩

/-- Names that look like quoted fields, hold a whole record, or are empty. -/
def oddRows : List FrequencyRow :=
  [("\"a\"", 3), ("a,b\nc,7\n", 12), ("", 0), (" é\t\"\r", 1)]

theorem readRecords_oddRows :
    frequencyRecords ',' oddRows =
        "pattern,count\n\"\"\"a\"\"\",3\n\"a,b\nc,7\n\",12\n,0\n\" é\t\"\"\r\",1\n" ∧
      readRecords ',' (Utf8.encode (frequencyRecords ',' oddRows)) =
        some [["pattern", "count"], ["\"a\"", "3"], ["a,b\nc,7\n", "12"], ["", "0"],
          [" é\t\"\r", "1"]] ∧
      readRecords '\t' (Utf8.encode (frequencyRecords '\t' oddRows)) =
        some [["pattern", "count"], ["\"a\"", "3"], ["a,b\nc,7\n", "12"], ["", "0"],
          [" é\t\"\r", "1"]] :=
  ⟨by decide +kernel, (readRecords_frequencyRecords (.inl rfl) oddRows).1,
    (readRecords_frequencyRecords (.inr rfl) oddRows).1⟩

end PatternAudit.Report
