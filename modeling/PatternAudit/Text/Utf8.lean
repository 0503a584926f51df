/-!
# Texts as bytes

Bytes are read as UTF-8 piece by piece: a piece is a character, or a longest run of bytes that
begins like a character and does not go on like one.
-/

namespace PatternAudit.Utf8

/-- The bytes of a text. -/
def encode (s : String) : List UInt8 :=
  s.toByteArray.data.toList

inductive Piece
  | char (c : Char)
  | broken
  deriving DecidableEq

/-- What the first byte of a character tells: the bits it carries, how many bytes follow it, and
between which bounds the next byte lies. -/
structure Lead where
  bits : Nat
  more : Nat
  least : UInt8
  greatest : UInt8

/-- The bounds on the second byte rule out codes that have a shorter form, surrogates and codes
that are too large. -/
def lead? (b : UInt8) : Option Lead :=
  if b < 0x80 then some ⟨b.toNat, 0, 0x80, 0xbf⟩
  else if b < 0xc2 then none
  else if b < 0xe0 then some ⟨b.toNat - 0xc0, 1, 0x80, 0xbf⟩
  else if b < 0xf0 then
    some ⟨b.toNat - 0xe0, 2, if b = 0xe0 then 0xa0 else 0x80, if b = 0xed then 0x9f else 0xbf⟩
  else if b < 0xf5 then
    some ⟨b.toNat - 0xf0, 3, if b = 0xf0 then 0x90 else 0x80, if b = 0xf4 then 0x8f else 0xbf⟩
  else none

/-- Reads the bytes that follow the first one of a character, up to one that does not fit. -/
def follow (bits : Nat) : (more : Nat) → (least greatest : UInt8) → List UInt8 →
    Piece × List UInt8
  | 0, _, _, rest => (.char (Char.ofNat bits), rest)
  | _ + 1, _, _, [] => (.broken, [])
  | more + 1, least, greatest, b :: rest =>
    if least ≤ b ∧ b ≤ greatest then follow (64 * bits + (b.toNat - 0x80)) more 0x80 0xbf rest
    else (.broken, b :: rest)

/-- The first piece of the bytes `b :: rest`, and the bytes after it. -/
def next (b : UInt8) (rest : List UInt8) : Piece × List UInt8 :=
  match lead? b with
  | none => (.broken, rest)
  | some lead => follow lead.bits lead.more lead.least lead.greatest rest

theorem length_follow_le (bits more : Nat) (least greatest : UInt8) (bytes : List UInt8) :
    (follow bits more least greatest bytes).2.length ≤ bytes.length := by
  fun_induction follow bits more least greatest bytes with
  | case1 => exact Nat.le_refl _
  | case2 => exact Nat.le_refl _
  | case3 bits more least greatest b rest _ ih => exact Nat.le_succ_of_le ih
  | case4 => exact Nat.le_refl _

theorem length_next_le (b : UInt8) (rest : List UInt8) :
    (next b rest).2.length ≤ rest.length := by
  unfold next
  split
  · exact Nat.le_refl _
  · exact length_follow_le ..

/-- The pieces of a sequence of bytes. -/
def pieces : List UInt8 → List Piece
  | [] => []
  | b :: rest => (next b rest).1 :: pieces (next b rest).2
termination_by bytes => bytes.length
decreasing_by exact Nat.lt_succ_of_le (length_next_le b rest)

def Piece.char? : Piece → Option Char
  | .char c => some c
  | .broken => none

/-- The number of bytes from the first broken piece on. -/
def brokenTail (bytes : List UInt8) : Nat :=
  let sound := (pieces bytes).takeWhile fun p => p.char?.isSome
  bytes.length - (sound.filterMap Piece.char?).foldl (fun n c => n + c.utf8Size) 0

/-- The text of some bytes; if they are no text, how many bytes are left at the first broken
piece. -/
def decode (bytes : List UInt8) : Except Nat String :=
  match (pieces bytes).mapM Piece.char? with
  | some chars => .ok (String.ofList chars)
  | none => .error (brokenTail bytes)

/-- The text of some bytes, with a replacement character for every broken piece. -/
def lossy (bytes : List UInt8) : String :=
  String.ofList ((pieces bytes).map fun p => p.char?.getD '\ufffd')

end PatternAudit.Utf8
