import PatternAudit.Decimal.Layout

/-!
# JSON values and their text

A value is written without blanks (`compact`) or over several lines (`pretty`). Members of an
object are written in the order in which they stand.
-/

namespace PatternAudit

/-- A JSON value. A number is a natural number or a double. -/
inductive Json
  | null
  | bool (b : Bool)
  | natural (n : Nat)
  | float (x : Float)
  | string (s : String)
  | array (items : List Json)
  | object (members : List (String × Json))

namespace Json

theorem sizeOf_member_lt {members : List (String × Json)} {m : String × Json}
    (h : m ∈ members) : sizeOf m.2 < sizeOf (object members) := by
  have hm := List.sizeOf_lt_of_mem h
  have hp : sizeOf m = 1 + sizeOf m.1 + sizeOf m.2 := by cases m; rfl
  simp only [object.sizeOf_spec]
  omega

theorem sizeOf_item_lt {items : List Json} {j : Json} (h : j ∈ items) :
    sizeOf j < sizeOf (array items) := by
  have := List.sizeOf_lt_of_mem h
  simp only [array.sizeOf_spec]
  omega

/-- Doubles are written plainly while the first digit stands between `10 ^ (-5)` and `10 ^ 15`. -/
def layout : Decimal.Layout := ⟨-5, 15⟩

/-- The shortest text that reads back as `x`; a number that is not finite has none and is written
as `null`. -/
def floatText (x : Float) : String :=
  match Double.ofFloat x with
  | .finite negative significand exponent =>
    let sign := if negative then ['-'] else []
    let digits := if significand = 0 then ['0', '.', '0']
      else (Decimal.shortest significand exponent).write layout
    String.ofList (sign ++ digits)
  | .infinite _ => "null"
  | .notANumber => "null"

/-- How a character stands inside a string: quotes, backslashes and control characters are
escaped, all else is written as it is. -/
def escapeChar (c : Char) : String :=
  if c = '"' then "\\\""
  else if c = '\\' then "\\\\"
  else if c = '\x08' then "\\b"
  else if c = '\x0c' then "\\f"
  else if c = '\n' then "\\n"
  else if c = '\r' then "\\r"
  else if c = '\t' then "\\t"
  else if c.toNat < 0x20 then
    "\\u00" ++ String.ofList [Nat.digitChar (c.toNat / 16), Nat.digitChar (c.toNat % 16)]
  else c.toString

/-- A string in its quotes. -/
def quote (s : String) : String :=
  "\"" ++ String.join (s.toList.map escapeChar) ++ "\""

/-- The text of a value that holds no other values. -/
def boolText (b : Bool) : String :=
  if b then "true" else "false"

/-- The text of a value without blanks. -/
def compact : Json → String
  | null => "null"
  | bool b => boolText b
  | natural n => n.repr
  | float x => floatText x
  | string s => quote s
  | array items => "[" ++ ",".intercalate (items.map compact) ++ "]"
  | object members =>
    "\x7b" ++ ",".intercalate (members.map fun m => quote m.1 ++ ":" ++ m.2.compact) ++ "\x7d"
termination_by j => sizeOf j
decreasing_by
  · exact sizeOf_item_lt ‹_›
  · exact sizeOf_member_lt ‹_›

/-- The indentation at a nesting depth: two blanks per level. -/
def indentation (depth : Nat) : String :=
  String.ofList (List.replicate (2 * depth) ' ')

/-- The parts of an array or object on lines of their own, one level deeper than the brackets. -/
def block (opening closing : String) (depth : Nat) (parts : List String) : String :=
  if parts.isEmpty then opening ++ closing
  else
    let lines := parts.map fun part => indentation (depth + 1) ++ part
    opening ++ "\n" ++ ",\n".intercalate lines ++ "\n" ++ indentation depth ++ closing

/-- The text of a value over several lines, as it stands at a nesting depth. -/
def prettyAt (depth : Nat) : Json → String
  | null => "null"
  | bool b => boolText b
  | natural n => n.repr
  | float x => floatText x
  | string s => quote s
  | array items => block "[" "]" depth (items.map (prettyAt (depth + 1)))
  | object members =>
    block "\x7b" "\x7d" depth
      (members.map fun m => quote m.1 ++ ": " ++ prettyAt (depth + 1) m.2)
termination_by j => sizeOf j
decreasing_by
  · exact sizeOf_item_lt ‹_›
  · exact sizeOf_member_lt ‹_›

def pretty (j : Json) : String :=
  j.prettyAt 0

/-- The same value with the members of every object in the order of their names. -/
def sortMembers : Json → Json
  | array items => array (items.map sortMembers)
  | object members =>
    object ((members.map fun m => (m.1, m.2.sortMembers)).mergeSort
      fun a b => (compare a.1 b.1).isLE)
  | j => j
termination_by j => sizeOf j
decreasing_by
  · exact sizeOf_item_lt ‹_›
  · exact sizeOf_member_lt ‹_›

end Json

end PatternAudit
