import PatternAudit.Json.Byte
import PatternAudit.Json.Defect
import PatternAudit.Text.Utf8

/-!
# Reading a string

A string is read byte by byte, from the byte after its opening quote. Raw bytes are kept as they
are; whether all bytes together are a text is judged at the closing quote.
-/

namespace PatternAudit.Json

/-- What the next byte of a string is part of. -/
inductive StringMode
  | plain
  /-- After a backslash. -/
  | escape
  /-- Inside `\u` and its four digits: `left` of them are still to come, and the others have a
  value unless one of them is no digit. A leading surrogate may have gone before. -/
  | hex (leading : Option Nat) (value : Option Nat) (left : Nat)
  /-- After a leading surrogate, whose partner must follow at once. -/
  | partnerSlash (leading : Nat)
  | partnerLetter (leading : Nat)
  deriving DecidableEq

/-- The string read so far, with its escapes resolved. -/
structure StringScan where
  bytes : Array UInt8
  mode : StringMode
  deriving DecidableEq

namespace StringScan

def start : StringScan := ⟨#[], .plain⟩

/-- Adds the bytes of the character with the given code. -/
def pushCode (bytes : Array UInt8) (code : Nat) : StringScan :=
  ⟨bytes ++ (String.utf8EncodeChar (Char.ofNat code)).toArray, .plain⟩

/-- Uses the value of four hexadecimal digits. -/
def takeCode (bytes : Array UInt8) (leading : Option Nat) (code : Nat) :
    Except Defect StringScan :=
  match leading with
  | none =>
    if 0xdc00 ≤ code ∧ code ≤ 0xdfff then .error .loneSurrogate
    else if 0xd800 ≤ code ∧ code ≤ 0xdbff then .ok ⟨bytes, .partnerSlash code⟩
    else .ok (pushCode bytes code)
  | some high =>
    if 0xdc00 ≤ code ∧ code ≤ 0xdfff then
      .ok (pushCode bytes (0x10000 + (high - 0xd800) * 0x400 + (code - 0xdc00)))
    else .error .loneSurrogate

/-- What a byte does to a string. -/
inductive Outcome
  /-- The string goes on. -/
  | more (s : StringScan)
  /-- The byte closes the string, which holds these bytes. -/
  | closed (bytes : Array UInt8)
  deriving DecidableEq

/-- The step on a byte of the string. -/
def step (s : StringScan) (b : UInt8) : Except Defect Outcome :=
  match s with
  | ⟨bytes, .plain⟩ =>
    if b = byte '"' then .ok (.closed bytes)
    else if b = byte '\\' then .ok (.more ⟨bytes, .escape⟩)
    else if b < 0x20 then .error .controlCharacter
    else .ok (.more ⟨bytes.push b, .plain⟩)
  | ⟨bytes, .escape⟩ =>
    if b = byte 'u' then .ok (.more ⟨bytes, .hex none (some 0) 4⟩)
    else
      match shortEscape? b with
      | some c => .ok (.more ⟨bytes.push c, .plain⟩)
      | none => .error .badEscape
  | ⟨bytes, .hex leading value left⟩ =>
    let value := value.bind fun v => (hexValue? b).map fun d => 16 * v + d
    if 1 < left then .ok (.more ⟨bytes, .hex leading value (left - 1)⟩)
    else
      match value with
      | none => .error .badEscape
      | some code => (takeCode bytes leading code).map .more
  | ⟨bytes, .partnerSlash leading⟩ =>
    if b = byte '\\' then .ok (.more ⟨bytes, .partnerLetter leading⟩) else .error .surrogateCut
  | ⟨bytes, .partnerLetter leading⟩ =>
    if b = byte 'u' then .ok (.more ⟨bytes, .hex (some leading) (some 0) 4⟩)
    else .error .surrogateCut

/-- The text of a string that holds some bytes. -/
def text (bytes : Array UInt8) : Except Defect String :=
  (Utf8.decode bytes.toList).mapError .badText

end StringScan

end PatternAudit.Json
