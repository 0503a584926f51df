import PatternAudit.Text.Printable

/-!
# Quoted texts in messages

A message that cites a text shows it in double quotes, on one line, with every character visible.
-/

namespace PatternAudit.Text

/-- How a character is shown between double quotes. -/
def showChar (c : Char) : String :=
  if c = '\x00' then "\\0"
  else if c = '\t' then "\\t"
  else if c = '\r' then "\\r"
  else if c = '\n' then "\\n"
  else if c = '\\' then "\\\\"
  else if c = '"' then "\\\""
  else if isPrintable c then c.toString
  else "\\u\x7b" ++ String.ofList (Nat.toDigits 16 c.toNat) ++ "\x7d"

def quoted (s : String) : String :=
  "\"" ++ String.join (s.toList.map showChar) ++ "\""

end PatternAudit.Text
