import PatternAudit.Json.NumberScan
import PatternAudit.Json.SkipScan
import PatternAudit.Json.StringScan
import PatternAudit.MatchFile.Basic
import PatternAudit.MatchFile.LoadError

/-!
# Reading a match file

The reader is fed one byte at a time. It holds the parts of the file read so far (`Draft`) and what
it expects next (`Control`): it is either between two tokens (`Gap`) or inside one (`Token`). A
fault is shown by the byte on which the reader halts, so positions need not be kept by the reader.

The file is one object. Its members `executableName`, `matcherName` and `executableArchitecture` are
strings, `realTime` and `cpuTime` are numbers, and the last of several members with one of these
names counts. The member `matches` must be there once and is an array of occurrences, each an object
with the members `patternName`, `startEA` and `endEA`, once each, or an array of these three. Other
members are passed over.
-/

namespace PatternAudit.MatchFile

open Json (Defect Number NumberScan SkipScan StringScan byte isBlank isDigit)

/-! ## Places and drafts -/

inductive TextKey
  | executable
  | matcher
  | architecture
  deriving DecidableEq

inductive TimeKey
  | real
  | cpu
  deriving DecidableEq

/-- The fields of an occurrence, in the order in which an array holds them. -/
inductive Field
  | pattern
  | start
  | stop
  deriving DecidableEq

def Field.name : Field → String
  | pattern => "patternName"
  | start => "startEA"
  | stop => "endEA"

/-- The objects whose members are read by name. -/
inductive Holder
  | file
  | occurrence
  deriving DecidableEq

/-- The places of a match file that hold a value of a certain kind. -/
inductive Place
  | document
  | text (key : TextKey)
  | time (key : TimeKey)
  | occurrences
  | occurrence
  /-- A member of an occurrence that is written as an object. -/
  | member (field : Field)
  /-- An element of an occurrence that is written as an array. -/
  | element (field : Field)
  deriving DecidableEq

def Field.expected : Field → Expected
  | pattern => .string
  | start => .location
  | stop => .location

def Place.expected (limit : Nat) : Place → Expected
  | document => .file
  | text _ => .string
  | time _ => .time
  | occurrences => .occurrences limit
  | occurrence => .occurrence
  | member field => field.expected
  | element field => field.expected

/-- The fields of the occurrence that is being read. -/
structure Fields where
  pattern : Option String := none
  start : Option UInt64 := none
  stop : Option UInt64 := none

/-- What has been read. `found` is there from the opening bracket of its array on. -/
structure Draft where
  run : RunInfo := {}
  found : Option (Array Occurrence) := none
  fields : Fields := {}

namespace Draft

def setText (d : Draft) (key : TextKey) (s : String) : Draft :=
  match key with
  | .executable => { d with run := { d.run with executable := s } }
  | .matcher => { d with run := { d.run with matcher := s } }
  | .architecture => { d with run := { d.run with architecture := s } }

def setTime (d : Draft) (key : TimeKey) (x : Float) : Draft :=
  match key with
  | .real => { d with run := { d.run with realTime := x } }
  | .cpu => { d with run := { d.run with cpuTime := x } }

def setPattern (d : Draft) (s : String) : Draft :=
  { d with fields := { d.fields with pattern := some s } }

def setStart (d : Draft) (n : UInt64) : Draft :=
  { d with fields := { d.fields with start := some n } }

def setStop (d : Draft) (n : UInt64) : Draft :=
  { d with fields := { d.fields with stop := some n } }

def hasField (d : Draft) : Field → Bool
  | .pattern => d.fields.pattern.isSome
  | .start => d.fields.start.isSome
  | .stop => d.fields.stop.isSome

end Draft

/-! ## Control -/

/-- Between two tokens: what may follow. -/
inductive Gap
  | value (place : Place)
  /-- After an opening brace. -/
  | firstMember (holder : Holder)
  /-- After the comma between two members. -/
  | nextMember (holder : Holder)
  /-- After a key; the value is passed over if it has no place. -/
  | colon (holder : Holder) (place : Option Place)
  /-- After a key that has been there before. The fault is shown by the next token. -/
  | repeated (name : String)
  /-- After the value of a member. -/
  | memberEnd (holder : Holder)
  /-- After the opening bracket of the list of occurrences. -/
  | firstOccurrence
  | nextOccurrence
  | occurrenceEnd
  /-- After the opening bracket of an occurrence. -/
  | firstElement
  /-- After the comma before an element. -/
  | nextElement (field : Field)
  /-- After an element. -/
  | elementEnd (field : Field)
  /-- After a comma that follows the last element. -/
  | surplus
  | finished
  deriving DecidableEq

/-- Inside a token. -/
inductive Token
  | key (holder : Holder) (scan : StringScan)
  | string (place : Place) (scan : StringScan)
  | number (place : Place) (scan : NumberScan)
  /-- A literal word, which has no place in a match file, and its bytes still to come. -/
  | word (place : Place) (found : Unexpected) (left : List UInt8)
  | skip (holder : Holder) (scan : SkipScan)

inductive Control
  | between (gap : Gap)
  | inside (token : Token)

structure Reader where
  draft : Draft
  control : Control

/-- Why the reader does not go on. -/
inductive Halt
  | fault (cause : Cause)
  /-- One occurrence too many has been read. -/
  | limit

def fault {α : Type} (cause : Cause) : Except Halt α :=
  .error (.fault cause)

def defect {α : Type} (d : Defect) : Except Halt α :=
  fault (.defect d)

/-- Halts on a cause. -/
def orFault {α : Type} (x : Except Cause α) : Except Halt α :=
  x.mapError .fault

/-- Halts on a defect of a token. -/
def orDefect {α : Type} (x : Except Defect α) : Except Halt α :=
  x.mapError fun d => .fault (.defect d)

namespace Reader

/-- Before the first byte. -/
def start : Reader := ⟨{}, .between (.value .document)⟩

def atGap (d : Draft) (gap : Gap) : Reader := ⟨d, .between gap⟩

/-! ## Values that have been read -/

/-- Puts a string in its place. -/
def storeText (limit : Nat) (d : Draft) (place : Place) (s : String) : Except Cause (Draft × Gap) :=
  match place with
  | .text key => .ok (d.setText key s, .memberEnd .file)
  | .member .pattern => .ok (d.setPattern s, .memberEnd .occurrence)
  | .element .pattern => .ok (d.setPattern s, .elementEnd .pattern)
  | _ => .error (.wrongType (.string s) (place.expected limit))

/-- The kind of value that a number is. -/
def unexpectedNumber : Number → Unexpected
  | .natural n => .natural n
  | .negative n => .negative n
  | .float x => .float x

/-- Any number is a time. -/
def timeOf : Number → Float
  | .natural n => n.toUInt64.toFloat
  | .negative n => -n.toUInt64.toFloat
  | .float x => x

/-- A location is a whole number of 64 bits without a sign. -/
def locationOf : Number → Except Cause UInt64
  | .natural n => .ok n.toUInt64
  | .negative n => .error (.negativeLocation n)
  | .float x => .error (.wrongType (.float x) .location)

/-- Puts a number in its place. -/
def storeNumber (limit : Nat) (d : Draft) (place : Place) (n : Number) :
    Except Cause (Draft × Gap) :=
  match place with
  | .time key => .ok (d.setTime key (timeOf n), .memberEnd .file)
  | .member .start => (locationOf n).map fun l => (d.setStart l, .memberEnd .occurrence)
  | .member .stop => (locationOf n).map fun l => (d.setStop l, .memberEnd .occurrence)
  | .element .start => (locationOf n).map fun l => (d.setStart l, .elementEnd .start)
  | .element .stop => (locationOf n).map fun l => (d.setStop l, .elementEnd .stop)
  | _ => .error (.wrongType (unexpectedNumber n) (place.expected limit))

/-- Puts a number that has ended in its place. -/
def closeNumber (limit : Nat) (d : Draft) (place : Place) (scan : NumberScan) :
    Except Cause (Draft × Gap) :=
  match scan.value with
  | .error d => .error (.defect d)
  | .ok n => storeNumber limit d place n

/-- The occurrence whose fields have been read; of those that are missing the first is named. -/
def takeOccurrence (fields : Fields) : Except Halt Occurrence :=
  match fields.pattern, fields.start, fields.stop with
  | none, _, _ => fault (.missingField (Field.name .pattern))
  | _, none, _ => fault (.missingField (Field.name .start))
  | _, _, none => fault (.missingField (Field.name .stop))
  | some pattern, some start, some stop => .ok ⟨pattern, start, stop⟩

/-- Adds the occurrence that has been read, unless there are enough. -/
def addOccurrence (limit : Nat) (d : Draft) : Except Halt Reader := do
  let o ← takeOccurrence d.fields
  let found := d.found.getD #[]
  if (checkLimit found.size limit).isSome then .error .limit
  else .ok (atGap { d with found := some (found.push o), fields := {} } .occurrenceEnd)

/-- At the closing brace of an object. -/
def closeObject (limit : Nat) (d : Draft) : Holder → Except Halt Reader
  | .file =>
    match d.found with
    | none => fault (.missingField "matches")
    | some _ => .ok (atGap d .finished)
  | .occurrence => addOccurrence limit d

/-! ## Tokens that begin -/

/-- The step on the first byte of a value. -/
def openValue (limit : Nat) (d : Draft) (place : Place) (b : UInt8) : Except Halt Reader :=
  if b = byte '"' then .ok ⟨d, .inside (.string place .start)⟩
  else if b = byte '-' ∨ isDigit b then .ok ⟨d, .inside (.number place (.start b))⟩
  else if b = byte '[' then
    match place with
    | .occurrences => .ok (atGap { d with found := some #[] } .firstOccurrence)
    | .occurrence => .ok (atGap d .firstElement)
    | _ => fault (.wrongType .array (place.expected limit))
  else if b = byte '\x7b' then
    match place with
    | .document => .ok (atGap d (.firstMember .file))
    | .occurrence => .ok (atGap d (.firstMember .occurrence))
    | _ => fault (.wrongType .object (place.expected limit))
  else if b = byte 'n' then .ok ⟨d, .inside (.word place .null ("ull".toList.map byte))⟩
  else if b = byte 't' then .ok ⟨d, .inside (.word place (.bool true) ("rue".toList.map byte))⟩
  else if b = byte 'f' then .ok ⟨d, .inside (.word place (.bool false) ("alse".toList.map byte))⟩
  else defect .noValue

/-- The gap after the key of a member of an occurrence. -/
def fieldGap (d : Draft) (field : Field) : Gap :=
  if d.hasField field then .repeated field.name
  else .colon .occurrence (some (.member field))

/-- The gap after a key. -/
def keyGap (d : Draft) (holder : Holder) (key : String) : Gap :=
  match holder with
  | .file =>
    if key = "executableName" then .colon .file (some (.text .executable))
    else if key = "matcherName" then .colon .file (some (.text .matcher))
    else if key = "executableArchitecture" then .colon .file (some (.text .architecture))
    else if key = "realTime" then .colon .file (some (.time .real))
    else if key = "cpuTime" then .colon .file (some (.time .cpu))
    else if key = "matches" then
      if d.found.isSome then .repeated "matches" else .colon .file (some .occurrences)
    else .colon .file none
  | .occurrence =>
    if key = Field.name .pattern then fieldGap d .pattern
    else if key = Field.name .start then fieldGap d .start
    else if key = Field.name .stop then fieldGap d .stop
    else .colon .occurrence none

/-! ## Steps -/

/-- The step after an element of an occurrence, on a byte that is not blank. -/
def afterElement (limit : Nat) (d : Draft) (field : Field) (b : UInt8) : Except Halt Reader :=
  match field with
  | .pattern =>
    if b = byte ',' then .ok (atGap d (.nextElement .start))
    else if b = byte ']' then fault (.shortOccurrence 1)
    else defect .noCommaInArray
  | .start =>
    if b = byte ',' then .ok (atGap d (.nextElement .stop))
    else if b = byte ']' then fault (.shortOccurrence 2)
    else defect .noCommaInArray
  | .stop =>
    if b = byte ',' then .ok (atGap d .surplus)
    else if b = byte ']' then addOccurrence limit d
    else defect .trailingCharacters

/-- The step between two tokens, on a byte that is not blank. -/
def stepGap (limit : Nat) (d : Draft) (gap : Gap) (b : UInt8) : Except Halt Reader :=
  match gap with
  | .value place => openValue limit d place b
  | .firstMember holder =>
    if b = byte '"' then .ok ⟨d, .inside (.key holder .start)⟩
    else if b = byte '\x7d' then closeObject limit d holder
    else defect .keyNotString
  | .nextMember holder =>
    if b = byte '"' then .ok ⟨d, .inside (.key holder .start)⟩
    else if b = byte '\x7d' then defect .trailingComma
    else defect .keyNotString
  | .colon holder place =>
    if b = byte ':' then
      match place with
      | some place => .ok (atGap d (.value place))
      | none => .ok ⟨d, .inside (.skip holder .start)⟩
    else defect .noColon
  | .repeated name => fault (.duplicateField name)
  | .memberEnd holder =>
    if b = byte ',' then .ok (atGap d (.nextMember holder))
    else if b = byte '\x7d' then closeObject limit d holder
    else defect .noCommaInObject
  | .firstOccurrence =>
    if b = byte ']' then .ok (atGap d (.memberEnd .file)) else openValue limit d .occurrence b
  | .nextOccurrence =>
    if b = byte ']' then defect .trailingComma else openValue limit d .occurrence b
  | .occurrenceEnd =>
    if b = byte ',' then .ok (atGap d .nextOccurrence)
    else if b = byte ']' then .ok (atGap d (.memberEnd .file))
    else defect .noCommaInArray
  | .firstElement =>
    if b = byte ']' then fault (.shortOccurrence 0) else openValue limit d (.element .pattern) b
  | .nextElement field =>
    if b = byte ']' then defect .trailingComma else openValue limit d (.element field) b
  | .elementEnd field => afterElement limit d field b
  | .surplus => if b = byte ']' then defect .trailingComma else defect .trailingCharacters
  | .finished => defect .trailingCharacters

/-- The step between two tokens. -/
def stepBetween (limit : Nat) (d : Draft) (gap : Gap) (b : UInt8) : Except Halt Reader :=
  if isBlank b then .ok (atGap d gap) else stepGap limit d gap b

/-- The step inside a token. -/
def stepInside (limit : Nat) (d : Draft) (token : Token) (b : UInt8) : Except Halt Reader :=
  match token with
  | .key holder scan => do
    match ← orDefect (scan.step b) with
    | .more scan => .ok ⟨d, .inside (.key holder scan)⟩
    | .closed bytes => .ok (atGap d (keyGap d holder (← orDefect (StringScan.text bytes))))
  | .string place scan => do
    match ← orDefect (scan.step b) with
    | .more scan => .ok ⟨d, .inside (.string place scan)⟩
    | .closed bytes =>
      let (d, gap) ← orFault (storeText limit d place (← orDefect (StringScan.text bytes)))
      .ok (atGap d gap)
  | .number place scan => do
    match ← orDefect (scan.step b) with
    | some scan => .ok ⟨d, .inside (.number place scan)⟩
    | none =>
      let (d, gap) ← orFault (closeNumber limit d place scan)
      stepBetween limit d gap b
  | .word place found left =>
    match left with
    | [] => defect .noWord
    | expected :: left =>
      if b ≠ expected then defect .noWord
      else if left.isEmpty then fault (.wrongType found (place.expected limit))
      else .ok ⟨d, .inside (.word place found left)⟩
  | .skip holder scan => do
    match ← orDefect (scan.step b) with
    | .more scan => .ok ⟨d, .inside (.skip holder scan)⟩
    | .ended => .ok (atGap d (.memberEnd holder))
    | .endedBefore => stepBetween limit d (.memberEnd holder) b

/-- The reader after one more byte. -/
def step (limit : Nat) (r : Reader) (b : UInt8) : Except Halt Reader :=
  match r.control with
  | .between gap => stepBetween limit r.draft gap b
  | .inside token => stepInside limit r.draft token b

/-! ## The end of the input -/

/-- What the end of the input means between two tokens. -/
def endGap (d : Draft) : Gap → Except Cause MatchFile
  | .value _ | .nextMember _ | .nextOccurrence | .nextElement _ => .error (.defect .endInValue)
  | .firstMember _ | .colon .. | .memberEnd _ => .error (.defect .endInObject)
  | .firstOccurrence | .occurrenceEnd | .firstElement | .elementEnd _ =>
    .error (.defect .endInArray)
  | .repeated name => .error (.duplicateField name)
  | .surplus => .error (.defect .trailingCharacters)
  | .finished => .ok ⟨d.run, (d.found.getD #[]).toList⟩

/-- What the end of the input means inside a token. A number ends with the input. -/
def endToken (limit : Nat) (d : Draft) : Token → Except Cause MatchFile
  | .key .. | .string .. => .error (.defect .endInString)
  | .word .. => .error (.defect .endInValue)
  | .skip _ scan => .error (.defect scan.endDefect)
  | .number place scan => do
    let (d, gap) ← closeNumber limit d place scan
    endGap d gap

/-- The file, if the input may end here. -/
def finish (limit : Nat) (r : Reader) : Except Cause MatchFile :=
  match r.control with
  | .between gap => endGap r.draft gap
  | .inside token => endToken limit r.draft token

/-- Whether the reader is inside the top-level value, where a failure of the source has a
position. -/
def isInside (r : Reader) : Bool :=
  match r.control with
  | .between (.value .document) | .between .finished => false
  | _ => true

/-- The cause if the source fails here. A fault that is already certain comes first. -/
def interrupt (r : Reader) (failure : SourceFailure) : Cause :=
  match r.control with
  | .between (.repeated name) => .duplicateField name
  | .between .surplus => .defect .trailingCharacters
  | _ => .source failure

end Reader

end PatternAudit.MatchFile
