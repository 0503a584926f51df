import PatternAudit.Json.Byte

/-!
# The grammar of JSON texts

What a text must look like to be JSON, said without reading it: which bytes may stand for a
character, a string, a number or a value. A string that has a meaning is described together with the
text it stands for (`StringText`). Of a value that is passed over only its form is described
(`PartText`); its strings may name surrogates that stand for no character.
-/

namespace PatternAudit.Json

/-- Blanks, which may stand between any two tokens. -/
def Blanks (t : List UInt8) : Prop :=
  ∀ b ∈ t, isBlank b = true

-- Bytes are finitely many, so without this instance all of them might be tried.
instance (t : List UInt8) : Decidable (Blanks t) :=
  decidable_of_iff (t.all isBlank = true) List.all_eq_true

theorem blanks_nil : Blanks [] := by
  decide

theorem blanks_cons {b : UInt8} {t : List UInt8} : Blanks (b :: t) ↔ isBlank b ∧ Blanks t :=
  List.forall_mem_cons

/-- The bytes after which a number cannot go on. -/
def isDelimiter (b : UInt8) : Bool :=
  isBlank b || b == byte ',' || b == byte ']' || b == byte '\x7d'

/-- The rest of a text behind a value. -/
def Delimited (t : List UInt8) : Prop :=
  ∃ b tail, t = b :: tail ∧ isDelimiter b

/-! ## Strings -/

/-- A hexadecimal digit of either case. -/
inductive HexDigit : Nat → UInt8 → Prop
  | lower {v : Nat} (h : v < 16) : HexDigit v (byte (Nat.digitChar v))
  | upper {v : Nat} (h : v < 16) : HexDigit v (byte (Nat.digitChar v).toUpper)

/-- Four hexadecimal digits with their value. -/
inductive HexCode : Nat → List UInt8 → Prop
  | four {a b c d : UInt8} {i j k l : Nat} (ha : HexDigit i a) (hb : HexDigit j b)
    (hc : HexDigit k c) (hd : HexDigit l d) :
    HexCode (16 * (16 * (16 * i + j) + k) + l) [a, b, c, d]

/-- The letters that may follow a backslash, with the characters that they stand for. -/
def shortEscapes : List (Char × Char) :=
  [('"', '"'), ('\\', '\\'), ('/', '/'), ('b', '\x08'), ('f', '\x0c'), ('n', '\n'), ('r', '\r'),
    ('t', '\t')]

/-- The ways to write a character inside a string. -/
inductive CharText : Char → List UInt8 → Prop
  | raw {c : Char} (hControl : 0x20 ≤ c.toNat) (hQuote : c ≠ '"') (hSlash : c ≠ '\\') :
    CharText c (String.utf8EncodeChar c)
  | short {letter c : Char} (h : (letter, c) ∈ shortEscapes) :
    CharText c [byte '\\', byte letter]
  | code {c : Char} {t : List UInt8} (h : HexCode c.toNat t) :
    CharText c (byte '\\' :: byte 'u' :: t)
  /-- A character beyond the codes of four digits, as a leading and a trailing surrogate. -/
  | pair {c : Char} {high low : Nat} {t u : List UInt8} (hHigh : HexCode (0xd800 + high) t)
    (hLow : HexCode (0xdc00 + low) u) (hHighLt : high < 0x400) (hLowLt : low < 0x400)
    (hChar : c.toNat = 0x10000 + 0x400 * high + low) :
    CharText c (byte '\\' :: byte 'u' :: (t ++ byte '\\' :: byte 'u' :: u))

/-- The ways to write some characters one after the other. -/
inductive CharsText : List Char → List UInt8 → Prop
  | nil : CharsText [] []
  | cons {c : Char} {cs : List Char} {t u : List UInt8} (hc : CharText c t) (hcs : CharsText cs u) :
    CharsText (c :: cs) (t ++ u)

/-- The ways to write a string. -/
inductive StringText : String → List UInt8 → Prop
  | quoted {s : String} {t : List UInt8} (h : CharsText s.toList t) :
    StringText s (byte '"' :: (t ++ [byte '"']))

/-- The inside of a string that is passed over: any code of four digits may be named. -/
inductive LooseText : List UInt8 → Prop
  | nil : LooseText []
  | char {c : Char} {t u : List UInt8} (ht : CharText c t) (hu : LooseText u) : LooseText (t ++ u)
  | code {n : Nat} {t u : List UInt8} (ht : HexCode n t) (hu : LooseText u) :
    LooseText (byte '\\' :: byte 'u' :: (t ++ u))

/-! ## Numbers -/

def Digits (t : List UInt8) : Prop :=
  ∀ b ∈ t, isDigit b = true

instance (t : List UInt8) : Decidable (Digits t) :=
  decidable_of_iff (t.all isDigit = true) List.all_eq_true

theorem Digits.concat {t : List UInt8} {b : UInt8} (ht : Digits t) (hb : isDigit b) :
    Digits (t ++ [b]) := by
  intro c hc
  rcases List.mem_append.mp hc with hc | hc
  · exact ht c hc
  · rw [List.mem_singleton.mp hc]
    exact hb

/-- The digits of a whole number, without superfluous zeros in front. -/
inductive WholeText : List UInt8 → Prop
  | zero : WholeText [byte '0']
  | digits {b : UInt8} {t : List UInt8} (hb : isDigit b) (hZero : b ≠ byte '0') (ht : Digits t) :
    WholeText (b :: t)

inductive FractionText : List UInt8 → Prop
  | none : FractionText []
  | digits {b : UInt8} {t : List UInt8} (hb : isDigit b) (ht : Digits t) :
    FractionText (byte '.' :: b :: t)

inductive ExponentText : List UInt8 → Prop
  | none : ExponentText []
  | digits {mark b : UInt8} {sign t : List UInt8} (hMark : mark = byte 'e' ∨ mark = byte 'E')
    (hSign : sign = [] ∨ sign = [byte '+'] ∨ sign = [byte '-']) (hb : isDigit b) (ht : Digits t) :
    ExponentText (mark :: (sign ++ b :: t))

inductive NumberText : List UInt8 → Prop
  | plain {t u v : List UInt8} (ht : WholeText t) (hu : FractionText u) (hv : ExponentText v) :
    NumberText (t ++ u ++ v)
  | negative {t u v : List UInt8} (ht : WholeText t) (hu : FractionText u) (hv : ExponentText v) :
    NumberText (byte '-' :: (t ++ u ++ v))

/-- The number that some digits stand for, behind others that stand for `n`. -/
def decimal (n : Nat) (t : List UInt8) : Nat :=
  t.foldl (fun n b => 10 * n + digitValue b) n

/-- The one way to write a location. -/
structure LocationText (n : UInt64) (t : List UInt8) : Prop where
  form : WholeText t
  value : decimal 0 t = n.toNat

/-! ## Lists and members -/

/-- A text between blanks. -/
inductive Padded (Inner : List UInt8 → Prop) : List UInt8 → Prop
  | mk {t w w' : List UInt8} (hw : Blanks w) (h : Inner t) (hw' : Blanks w') :
    Padded Inner (w ++ (t ++ w'))

theorem Padded.of {Inner : List UInt8 → Prop} {t : List UInt8} (h : Inner t) : Padded Inner t := by
  simpa using Padded.mk blanks_nil h blanks_nil

/-- Texts with commas between them, each of which stands for something. -/
inductive Separated {α : Type} (Item : α → List UInt8 → Prop) : List α → List UInt8 → Prop
  | last {a : α} {t : List UInt8} (h : Item a t) : Separated Item [a] t
  | more {a : α} {as : List α} {t u : List UInt8} (ht : Item a t) (hu : Separated Item as u) :
    Separated Item (a :: as) (t ++ byte ',' :: u)

/-- Such texts between brackets. -/
inductive Enclosed {α : Type} (opening closing : Char) (Item : α → List UInt8 → Prop) :
    List α → List UInt8 → Prop
  | empty {w : List UInt8} (hw : Blanks w) :
    Enclosed opening closing Item [] (byte opening :: (w ++ [byte closing]))
  | items {as : List α} {t : List UInt8} (h : Separated Item as t) :
    Enclosed opening closing Item as (byte opening :: (t ++ [byte closing]))

/-- A member with a given key. -/
inductive MemberText (key : String) (Value : List UInt8 → Prop) : List UInt8 → Prop
  | mk {t u : List UInt8} (hKey : Padded (StringText key) t) (hValue : Padded Value u) :
    MemberText key Value (t ++ byte ':' :: u)

/-! ## Values -/

/-- The parts that values are made of. An item or member stands between blanks. -/
inductive Part
  | value
  | item
  | items
  | member
  | members

/-- The form of a value, of any depth. -/
inductive PartText : Part → List UInt8 → Prop
  | null : PartText .value ("null".toList.map byte)
  | true : PartText .value ("true".toList.map byte)
  | false : PartText .value ("false".toList.map byte)
  | number {t : List UInt8} (h : NumberText t) : PartText .value t
  | string {t : List UInt8} (h : LooseText t) : PartText .value (byte '"' :: (t ++ [byte '"']))
  | emptyArray {w : List UInt8} (h : Blanks w) : PartText .value (byte '[' :: (w ++ [byte ']']))
  | array {t : List UInt8} (h : PartText .items t) : PartText .value (byte '[' :: (t ++ [byte ']']))
  | emptyObject {w : List UInt8} (h : Blanks w) :
    PartText .value (byte '\x7b' :: (w ++ [byte '\x7d']))
  | object {t : List UInt8} (h : PartText .members t) :
    PartText .value (byte '\x7b' :: (t ++ [byte '\x7d']))
  | item {t w w' : List UInt8} (hw : Blanks w) (h : PartText .value t) (hw' : Blanks w') :
    PartText .item (w ++ (t ++ w'))
  | lastItem {t : List UInt8} (h : PartText .item t) : PartText .items t
  | moreItems {t u : List UInt8} (ht : PartText .item t) (hu : PartText .items u) :
    PartText .items (t ++ byte ',' :: u)
  | member {k t w w' : List UInt8} (hw : Blanks w) (hk : LooseText k) (hw' : Blanks w')
    (h : PartText .item t) :
    PartText .member (w ++ byte '"' :: (k ++ byte '"' :: (w' ++ byte ':' :: t)))
  | lastMember {t : List UInt8} (h : PartText .member t) : PartText .members t
  | moreMembers {t u : List UInt8} (ht : PartText .member t) (hu : PartText .members u) :
    PartText .members (t ++ byte ',' :: u)

end PatternAudit.Json
