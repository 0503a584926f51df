import PatternAudit.Frequency
import PatternAudit.Json.Value
import PatternAudit.Report.Listing

/-!
# Pattern frequencies

A table of patterns and their counts, as aligned text, as JSON, or as delimited records whose fields
are quoted where needed.
-/

namespace PatternAudit.Report

/-- A pattern and its count. -/
abbrev FrequencyRow := String × Nat

/-! ## Aligned text -/

/-- The text, followed by blanks up to `width` characters. -/
def padEnd (width : Nat) (s : String) : String :=
  s ++ String.ofList (List.replicate (width - s.length) ' ')

/-- The text, with blanks before it up to `width` characters. -/
def padStart (width : Nat) (s : String) : String :=
  String.ofList (List.replicate (width - s.length) ' ') ++ s

/-- The width of the column of counts. -/
def countWidth : Nat := 8

/-- The width of the column of names: the largest number of bytes of a name. -/
def nameWidth (rows : List FrequencyRow) : Nat :=
  (rows.map fun r => r.1.utf8ByteSize).foldl max 0

def frequencyLine (width : Nat) (row : FrequencyRow) : String :=
  "  " ++ padEnd width row.1 ++ "  " ++ padStart countWidth row.2.repr

/-- The table as text, under a title. -/
def frequencyText (rows : List FrequencyRow) : String :=
  line s!"Pattern frequencies ({rows.length.repr} patterns)" ++ line "" ++
  String.join (rows.map fun r => line (frequencyLine (nameWidth rows) r))

/-! ## JSON -/

def frequencyDocument (rows : List FrequencyRow) : Json :=
  .array (rows.map fun r => .object [("count", .natural r.2), ("pattern", .string r.1)])

/-! ## Delimited records -/

/-- A field that holds the delimiter, a quote or a line end is put in quotes. -/
def needsQuotes (delimiter : Char) (field : String) : Bool :=
  field.toList.any fun c => c == delimiter || c == '"' || c == '\r' || c == '\n'

/-- A quote inside a quoted field is written twice. -/
def doubleQuotes (field : String) : String :=
  String.join (field.toList.map fun c => if c = '"' then "\"\"" else c.toString)

def writeField (delimiter : Char) (field : String) : String :=
  if needsQuotes delimiter field then "\"" ++ doubleQuotes field ++ "\"" else field

def writeRecord (delimiter : Char) (fields : List String) : String :=
  line (delimiter.toString.intercalate (fields.map (writeField delimiter)))

/-- The table as records, under a header. -/
def frequencyRecords (delimiter : Char) (rows : List FrequencyRow) : String :=
  String.join ((["pattern", "count"] :: rows.map fun r => [r.1, r.2.repr]).map
    (writeRecord delimiter))

end PatternAudit.Report
