/-!
# Log lines

Messages may hold names from outside. Characters that could drive a terminal are written as
escapes, so that a log line shows what it holds.
-/

namespace PatternAudit.Log

inductive Level
  | debug
  | info
  deriving DecidableEq

/-- The name of a level, right-aligned in five columns. -/
def Level.label : Level → String
  | .debug => "DEBUG"
  | .info => " INFO"

structure Entry where
  level : Level
  message : String
  deriving DecidableEq

/-- Escape, bell, backspace, form feed and delete are written by their two hexadecimal digits, the
control characters from `0x80` to `0x9f` by their code in braces. -/
def escape (c : Char) : String :=
  if c = '\x1b' then "\\x1b"
  else if c = '\x07' then "\\x07"
  else if c = '\x08' then "\\x08"
  else if c = '\x0c' then "\\x0c"
  else if c = '\x7f' then "\\x7f"
  else if 0x80 ≤ c.toNat ∧ c.toNat ≤ 0x9f then
    "\\u\x7b" ++ String.ofList (Nat.toDigits 16 c.toNat) ++ "\x7d"
  else c.toString

def Entry.render (e : Entry) : String :=
  e.level.label ++ " " ++ String.join (e.message.toList.map escape) ++ "\n"

end PatternAudit.Log
