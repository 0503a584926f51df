import PatternAudit.Json.Byte
import PatternAudit.Json.Defect

/-!
# Passing over a value

A value that nobody asks for is only checked for its form: numbers may be of any size, escapes need
not stand for characters, and the bytes of strings need not be text. Brackets may nest to any depth.
-/

namespace PatternAudit.Json

inductive Bracket
  | array
  | object
  deriving DecidableEq

/-- How far a number that is passed over has been read. -/
inductive SkipNumber
  | sign
  | zero
  | whole
  | point
  | fraction
  | mark
  | signedMark
  | exponent
  deriving DecidableEq

/-- How far a string that is passed over has been read. -/
inductive SkipString
  | plain
  | escape
  /-- Inside `\u` and its four digits: whether those so far are digits, and how many are left. -/
  | hex (sound : Bool) (left : Nat)
  deriving DecidableEq

namespace SkipNumber

/-- The phase after the first byte of a number. -/
def start (b : UInt8) : SkipNumber :=
  if b = byte '-' then sign else if b = byte '0' then zero else whole

/-- The phase after one more byte, or `none` if the number has ended before it. -/
def step (n : SkipNumber) (b : UInt8) : Except Defect (Option SkipNumber) :=
  let marked := b = byte 'e' ∨ b = byte 'E'
  match n with
  | sign => if isDigit b then .ok (some (start b)) else .error .badNumber
  | zero =>
    if isDigit b then .error .badNumber
    else if b = byte '.' then .ok (some point)
    else if marked then .ok (some mark)
    else .ok none
  | whole =>
    if isDigit b then .ok (some whole)
    else if b = byte '.' then .ok (some point)
    else if marked then .ok (some mark)
    else .ok none
  | point => if isDigit b then .ok (some fraction) else .error .badNumber
  | fraction =>
    if isDigit b then .ok (some fraction) else if marked then .ok (some mark) else .ok none
  | mark =>
    if isDigit b then .ok (some exponent)
    else if b = byte '+' ∨ b = byte '-' then .ok (some signedMark)
    else .error .badNumber
  | signedMark => if isDigit b then .ok (some exponent) else .error .badNumber
  | exponent => if isDigit b then .ok (some exponent) else .ok none

/-- Whether the bytes so far are a number. -/
def isComplete : SkipNumber → Bool
  | zero | whole | fraction | exponent => true
  | sign | point | mark | signedMark => false

end SkipNumber

namespace SkipString

/-- The phase after one more byte, or `none` if that byte closes the string. -/
def step (s : SkipString) (b : UInt8) : Except Defect (Option SkipString) :=
  match s with
  | plain =>
    if b = byte '"' then .ok none
    else if b = byte '\\' then .ok (some escape)
    else if b < 0x20 then .error .controlCharacter
    else .ok (some plain)
  | escape =>
    if b = byte 'u' then .ok (some (hex true 4))
    else if (shortEscape? b).isSome then .ok (some plain)
    else .error .badEscape
  | hex sound left =>
    let sound := sound && (hexValue? b).isSome
    if 1 < left then .ok (some (hex sound (left - 1)))
    else if sound then .ok (some plain)
    else .error .badEscape

end SkipString

/-- How far a value that is passed over has been read. The brackets that are open stand beside it,
the innermost first. -/
inductive SkipPhase
  /-- Before a value. -/
  | value
  | number (n : SkipNumber)
  /-- Inside a string, a key or a value. -/
  | string (isKey : Bool) (s : SkipString)
  /-- Inside a literal word, of which these bytes are still to come. -/
  | word (left : List UInt8)
  /-- After an opening bracket. -/
  | opened
  /-- After a value inside a bracket. -/
  | after
  /-- Before a key, after a comma. -/
  | key
  /-- After a key. -/
  | colon
  deriving DecidableEq

/-- Where the value stands, and what of it is open. -/
structure SkipScan where
  brackets : List Bracket
  phase : SkipPhase
  deriving DecidableEq

namespace SkipScan

def start : SkipScan := ⟨[], .value⟩

/-- What a byte does to a value that is passed over. -/
inductive Outcome
  /-- The value goes on. -/
  | more (s : SkipScan)
  /-- The byte is the last one of the value. -/
  | ended
  /-- The value has ended before the byte. -/
  | endedBefore
  deriving DecidableEq

/-- After a value inside the given brackets. -/
def complete : List Bracket → Outcome
  | [] => .ended
  | brackets => .more ⟨brackets, .after⟩

/-- The step on the first byte of a value. -/
def openValue (brackets : List Bracket) (b : UInt8) : Except Defect Outcome :=
  if b = byte '"' then .ok (.more ⟨brackets, .string false .plain⟩)
  else if b = byte '-' ∨ isDigit b then .ok (.more ⟨brackets, .number (.start b)⟩)
  else if b = byte '[' then .ok (.more ⟨.array :: brackets, .opened⟩)
  else if b = byte '\x7b' then .ok (.more ⟨.object :: brackets, .opened⟩)
  else if b = byte 'n' then .ok (.more ⟨brackets, .word ("ull".toList.map byte)⟩)
  else if b = byte 't' then .ok (.more ⟨brackets, .word ("rue".toList.map byte)⟩)
  else if b = byte 'f' then .ok (.more ⟨brackets, .word ("alse".toList.map byte)⟩)
  else .error .noValue

/-- The step on a byte that must begin a key. -/
def openKey (brackets : List Bracket) (b : UInt8) : Except Defect Outcome :=
  if b = byte '"' then .ok (.more ⟨brackets, .string true .plain⟩) else .error .keyNotString

/-- Whether a byte closes a bracket. -/
def closes (bracket : Bracket) (b : UInt8) : Bool :=
  match bracket with
  | .array => b == byte ']'
  | .object => b == byte '\x7d'

/-- The step on a byte that follows a value. -/
def afterValue (brackets : List Bracket) (b : UInt8) : Except Defect Outcome :=
  match brackets with
  | [] => .ok .endedBefore
  | bracket :: outer =>
    if isBlank b then .ok (.more ⟨brackets, .after⟩)
    else if closes bracket b then .ok (complete outer)
    else
      match bracket with
      | .array => if b = byte ',' then .ok (.more ⟨brackets, .value⟩) else .error .noCommaInArray
      | .object => if b = byte ',' then .ok (.more ⟨brackets, .key⟩) else .error .noCommaInObject

/-- The step on a byte that follows an opening bracket. -/
def afterOpening (brackets : List Bracket) (b : UInt8) : Except Defect Outcome :=
  match brackets with
  | [] => .ok .endedBefore
  | bracket :: outer =>
    if closes bracket b then .ok (complete outer)
    else
      match bracket with
      | .array => openValue brackets b
      | .object => openKey brackets b

/-- The step on a byte of a literal word. -/
def wordStep (brackets : List Bracket) (left : List UInt8) (b : UInt8) : Except Defect Outcome :=
  match left with
  | [] => .error .noWord
  | expected :: left =>
    if b ≠ expected then .error .noWord
    else if left.isEmpty then .ok (complete brackets)
    else .ok (.more ⟨brackets, .word left⟩)

/-- The step on any byte. -/
def step (s : SkipScan) (b : UInt8) : Except Defect Outcome :=
  match s.phase with
  | .value => if isBlank b then .ok (.more s) else openValue s.brackets b
  | .number n => do
    match ← n.step b with
    | some n => .ok (.more ⟨s.brackets, .number n⟩)
    | none => afterValue s.brackets b
  | .string isKey t => do
    match ← t.step b with
    | some t => .ok (.more ⟨s.brackets, .string isKey t⟩)
    | none => .ok (if isKey then .more ⟨s.brackets, .colon⟩ else complete s.brackets)
  | .word left => wordStep s.brackets left b
  | .opened => if isBlank b then .ok (.more s) else afterOpening s.brackets b
  | .after => afterValue s.brackets b
  | .key => if isBlank b then .ok (.more s) else openKey s.brackets b
  | .colon =>
    if isBlank b then .ok (.more s)
    else if b = byte ':' then .ok (.more ⟨s.brackets, .value⟩)
    else .error .noColon

/-- What the end of the input means inside the given brackets, or in the object that holds the
value. -/
def endAfterValue : List Bracket → Defect
  | .array :: _ => .endInArray
  | _ => .endInObject

/-- What the end of the input means. -/
def endDefect (s : SkipScan) : Defect :=
  match s.phase with
  | .value | .word _ => .endInValue
  | .string .. => .endInString
  | .key | .colon => .endInObject
  | .number n => if n.isComplete then endAfterValue s.brackets else .badNumber
  | .opened | .after => endAfterValue s.brackets

end SkipScan

end PatternAudit.Json
