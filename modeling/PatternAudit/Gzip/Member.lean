import PatternAudit.Gzip.Crc32
import PatternAudit.Gzip.Inflate
import PatternAudit.Source

/-!
# Gzip members

A member is a header, a deflate stream, and a trailer with the checksum and the length of the
inflated bytes. Only the first member of a file is read, and what follows it does not matter. The
trailer is checked when the inflated bytes have all been given out.
-/

namespace PatternAudit.Gzip

/-! ## The header -/

/-- The flags of a header, as the bits that they are. -/
def hasChecksum (flags : UInt8) : Bool := flags.toNat.testBit 1

def hasExtra (flags : UInt8) : Bool := flags.toNat.testBit 2

def hasName (flags : UInt8) : Bool := flags.toNat.testBit 3

def hasComment (flags : UInt8) : Bool := flags.toNat.testBit 4

/-- The three highest flags must not be set. -/
def hasReserved (flags : UInt8) : Bool := 32 ≤ flags.toNat

/-- A number whose lowest byte comes first. -/
def littleEndian (bytes : List UInt8) : Nat :=
  bytes.foldr (fun b n => b.toNat + 256 * n) 0

/-- The most bytes that a name or a comment may have. -/
def maxFieldLength : Nat := 65535

/-- The bytes after a name or comment, which ends with a zero byte. -/
def skipField (room : Nat) : List UInt8 → Except SourceFailure (List UInt8)
  | [] => .error .gzipCut
  | b :: rest =>
    if b = 0 then .ok rest
    else
      match room with
      | 0 => .error .gzipFieldTooLong
      | room + 1 => skipField room rest

/-- The bytes after the extra field, which tells its length first. -/
def skipExtra : List UInt8 → Except SourceFailure (List UInt8)
  | low :: high :: rest =>
    let length := littleEndian [low, high]
    if length ≤ rest.length then .ok (rest.drop length) else .error .gzipCut
  | _ => .error .gzipCut

/-- The bytes after the checksum of `header`. -/
def checkHeader (header : List UInt8) : List UInt8 → Except SourceFailure (List UInt8)
  | low :: high :: rest =>
    if littleEndian [low, high] = (crc32 header).toNat % 65536 then .ok rest
    else .error .gzipChecksum
  | _ => .error .gzipCut

/-- The bytes after the fixed part of a header, and its flags. -/
def skipFixed : List UInt8 → Except SourceFailure (UInt8 × List UInt8)
  | first :: second :: method :: flags :: _ :: _ :: _ :: _ :: _ :: _ :: rest =>
    if first ≠ 0x1f ∨ second ≠ 0x8b ∨ method ≠ 8 ∨ hasReserved flags then .error .gzipHeader
    else .ok (flags, rest)
  | _ => .error .gzipCut

/-- The bytes after the header. -/
def skipHeader (bytes : List UInt8) : Except SourceFailure (List UInt8) := do
  let (flags, rest) ← skipFixed bytes
  let rest ← if hasExtra flags then skipExtra rest else .ok rest
  let rest ← if hasName flags then skipField maxFieldLength rest else .ok rest
  let rest ← if hasComment flags then skipField maxFieldLength rest else .ok rest
  if hasChecksum flags then checkHeader (bytes.take (bytes.length - rest.length)) rest
  else .ok rest

/-! ## The trailer -/

/-- What is wrong with the bytes after the stream that `output` was inflated from. -/
def trailerFailure (output rest : List UInt8) : Option SourceFailure :=
  if rest.length < 8 then some .gzipCut
  else if littleEndian (rest.take 4) = (crc32 output).toNat ∧
      littleEndian ((rest.drop 4).take 4) = output.length % Nat.pow 2 32 then none
  else some .gzipChecksum

/-! ## The inflated bytes -/

/-- The size of the pieces in which a file is read. -/
def pieceSize : Nat := 32768

/-- The size of the window in which bytes are inflated before they are given out. -/
def windowSize : Nat := 32768

/-- How many bytes come before the piece of the given size that holds the last of `n` bytes. -/
def wholePieces (size n : Nat) : Nat :=
  (n - 1) / size * size

/-- What is given out of a corrupt stream: the windows that have more to come after them, and all
that the pieces of the file before the one with the fault inflate to. The fault shows in the last
byte of `read`, which has `header` bytes before the stream. -/
def givenOut (header : Nat) (read output : List UInt8) : List UInt8 :=
  let earlier := inflate ((read.take (wholePieces pieceSize read.length)).drop header)
  output.take (max (wholePieces windowSize output.length) earlier.output.length)

/-- The inflated bytes of the member that a file begins with. -/
def source (bytes : List UInt8) : Source :=
  match skipHeader bytes with
  | .error failure => .failed failure
  | .ok body =>
    match inflate body with
    | .complete output rest => ⟨output, trailerFailure output rest⟩
    | .cut output => ⟨output, some .deflateCut⟩
    | .corrupt output rest =>
      let read := bytes.take (bytes.length - rest.length)
      ⟨givenOut (bytes.length - body.length) read output, some .deflateCorrupt⟩

end PatternAudit.Gzip
