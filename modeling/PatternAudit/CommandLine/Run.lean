import PatternAudit.CommandLine.Arguments
import PatternAudit.MatchFile.Load
import PatternAudit.Report.Delimited
import PatternAudit.Report.Document
import PatternAudit.Report.FrequencyTable
import PatternAudit.Report.Listing
import PatternAudit.Scoring

/-!
# Commands

A command loads its files, and only when all of them are there writes its report. What it has to say
besides the report are notes: log entries, and lines for whoever asked for more.
-/

namespace PatternAudit.CommandLine

/-- Something said beside the report. -/
inductive Note
  | log (entry : Log.Entry)
  | line (text : String)
  deriving DecidableEq

/-- What a command does. A failure is told by its outermost message and the causes below it. -/
structure Outcome where
  report : String
  notes : List Note
  failure : Option (List String)
  deriving DecidableEq

namespace Outcome

def success (notes : List Note) (report : String) : Outcome := ⟨report, notes, none⟩

def failed (notes : List Note) (messages : List String) : Outcome := ⟨"", notes, some messages⟩

/-- A file could not be loaded. -/
def unloaded (notes : List Note) (context : String) (e : MatchFile.LoadError) : Outcome :=
  failed notes (context :: e.message :: e.cause?.toList)

end Outcome

/-! ## Scoring -/

/-- The match file and the reference file of the command `evaluate`, or why they are not clear. -/
def EvaluateOptions.inputs (o : EvaluateOptions) : Except String (Path × Path) :=
  match o.files, o.executable, o.matcher with
  | [matched, reference], none, none => .ok (.ofString matched, .ofString reference)
  | [reference], some executable, some matcher =>
    .ok (matchPath (.ofString executable) matcher, .ofString reference)
  | [_, _], some _, _ =>
    .error "MATCHED cannot be combined with --executable; pass only REFERENCE"
  | _, _, _ =>
    .error "Expected MATCHED and REFERENCE, or --executable and --matcher with REFERENCE"

/-- The report on a scoring. -/
def scoringReport (format : Format) (verbose : Bool) (run : RunInfo) (s : Scoring) : String :=
  match format with
  | .text => Report.text verbose s.classification
  | .json => Report.line (Report.document run s).pretty
  | .csv => ((Report.row? .csv run s.summary).map Report.line).getD ""
  | .tsv => ((Report.row? .tsv run s.summary).map Report.line).getD ""

/-- What is said about two files that have been loaded. -/
def inputLines (matched reference : MatchFile) : List Note :=
  [.line (s!"Detected: {matched.found.length.repr} matches from matcher " ++
      s!"'{matched.run.matcher}' on '{matched.run.executable}'"),
    .line s!"Reference: {reference.found.length.repr} matches"]

/-- What a file is called in the message that it could not be loaded. -/
def loadContext (role : String) (path : Path) : String :=
  s!"Failed to read {role} file {path.text}"

def runEvaluate (disk : Disk) (format : Format) (verbose : Bool) (o : EvaluateOptions) : Outcome :=
  match o.inputs with
  | .error message => .failed [] [message]
  | .ok (matchedPath, referencePath) =>
    match MatchFile.load disk matchedPath with
    | .error e => .unloaded [] (loadContext "matched" matchedPath) e
    | .ok matched =>
      let notes := [Note.log (MatchFile.loaded matchedPath matched)]
      match MatchFile.load disk referencePath with
      | .error e => .unloaded notes (loadContext "reference" referencePath) e
      | .ok reference =>
        let s := score o.resolve matched.found reference.found
        let notes := notes ++ [.log (MatchFile.loaded referencePath reference)] ++
          (if verbose then inputLines matched reference else []) ++
          (s.log reference.found.length).map .log
        .success notes (scoringReport format verbose matched.run s)

/-! ## Pattern frequencies -/

/-- The report on pattern frequencies. -/
def frequencyReport (format : Format) (rows : List Report.FrequencyRow) : String :=
  match format with
  | .text => Report.frequencyText rows
  | .json => Report.line (Report.frequencyDocument rows).pretty
  | .csv => Report.frequencyRecords ',' rows
  | .tsv => Report.frequencyRecords '\t' rows

def runPatterns (disk : Disk) (format : Format) (verbose : Bool) (file : String) : Outcome :=
  let path := Path.ofString file
  match MatchFile.load disk path with
  | .error e => .unloaded [] (loadContext "match" path) e
  | .ok matched =>
    let frequencies := Frequencies.ofList matched.found
    let said := s!"{matched.found.length.repr} matches, {frequencies.size.repr} distinct patterns"
    .success (.log (MatchFile.loaded path matched) :: if verbose then [.line said] else [])
      (frequencyReport format frequencies.ranked)

/-! ## The program -/

def Invocation.run (i : Invocation) (disk : Disk) : Outcome :=
  match i.command with
  | .evaluate options => runEvaluate disk i.format i.verbose options
  | .patterns file => runPatterns disk i.format i.verbose file

/-- The paths that an invocation opens, in this order. -/
def Invocation.paths (i : Invocation) : List Path :=
  match i.command with
  | .evaluate options =>
    match options.inputs with
    | .ok (matched, reference) => [matched, reference]
    | .error _ => []
  | .patterns file => [.ofString file]

end PatternAudit.CommandLine
