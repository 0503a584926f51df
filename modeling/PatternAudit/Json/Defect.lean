/-!
# Defects of a JSON text
-/

namespace PatternAudit.Json

/-- Why some bytes are not, or not yet, a JSON value. -/
inductive Defect
  | endInArray
  | endInObject
  | endInString
  | endInValue
  | noColon
  | noCommaInArray
  | noCommaInObject
  | noWord
  | noValue
  | badEscape
  | badNumber
  | hugeNumber
  /-- The bytes of a string are no text; so many of them are left where they cease to be. -/
  | badText (left : Nat)
  | controlCharacter
  | keyNotString
  | loneSurrogate
  | surrogateCut
  | trailingComma
  | trailingCharacters
  deriving DecidableEq

namespace Defect

/-- Whether all bytes are right and only more of them are wanted. -/
def isTruncation : Defect → Bool
  | endInArray | endInObject | endInString | endInValue => true
  | _ => false

def text : Defect → String
  | endInArray => "EOF while parsing a list"
  | endInObject => "EOF while parsing an object"
  | endInString => "EOF while parsing a string"
  | endInValue => "EOF while parsing a value"
  | noColon => "expected `:`"
  | noCommaInArray => "expected `,` or `]`"
  | noCommaInObject => "expected `,` or `\x7d`"
  | noWord => "expected ident"
  | noValue => "expected value"
  | badEscape => "invalid escape"
  | badNumber => "invalid number"
  | hugeNumber => "number out of range"
  | badText _ => "invalid unicode code point"
  | controlCharacter => "control character (\\u0000-\\u001F) found while parsing a string"
  | keyNotString => "key must be a string"
  | loneSurrogate => "lone leading surrogate in hex escape"
  | surrogateCut => "unexpected end of hex escape"
  | trailingComma => "trailing comma"
  | trailingCharacters => "trailing characters"

end Defect

end PatternAudit.Json
