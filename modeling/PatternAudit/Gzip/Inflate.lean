import PatternAudit.Gzip.Code

/-!
# Inflating

A deflate stream is read bit by bit. It is a sequence of blocks: stored bytes, or symbols of a fixed
code, or symbols of a code that the block itself describes. A symbol is a byte, the end of the
block, or the length of a stretch to be repeated, after which a second code tells how far back it
begins. What lies before the first byte counts as zeros.
-/

namespace PatternAudit.Gzip

/-- The codes of a block. -/
structure Codes where
  literal : Code
  distance : Code

/-- The description of a block's codes, as far as it has been read. -/
structure Table where
  literals : Nat
  distances : Nat
  /-- The lengths of the paths of the literals, then of the distances. -/
  lengths : Array Nat

/-- What a number of a fixed count of bits is. -/
inductive Purpose
  | blockHeader
  | storedSize
  | storedCheck (size : Nat)
  | storedByte (left : Nat)
  | tableSizes
  /-- A path length of the code that the lengths are written in. -/
  | codeLength (table : Table) (left : Nat) (lengths : Array Nat)
  /-- How often, beyond `base` times, a length is repeated. -/
  | repetition (table : Table) (code : Code) (length base : Nat)
  | matchLength (codes : Codes) (base : Nat)
  | matchDistance (codes : Codes) (length base : Nat)

/-- What the next bit is part of. -/
inductive Control
  /-- A number, of which `left` bits are to come; the next one weighs `weight`. -/
  | bits (purpose : Purpose) (left weight value : Nat)
  /-- The unused end of the byte before a stored block. -/
  | padding
  /-- A symbol that stands for path lengths. -/
  | length (table : Table) (code : Code) (position : Code)
  | symbol (codes : Codes) (position : Code)
  | distance (codes : Codes) (length : Nat) (position : Code)
  | finished
  | corrupt

structure Inflater where
  output : ByteArray
  /-- Whether the current block is the last one. -/
  isLast : Bool
  control : Control

/-- The order in which the lengths of the code of lengths are given. -/
def codeLengthOrder : List Nat :=
  [16, 17, 18, 0, 8, 7, 9, 6, 10, 5, 11, 4, 12, 3, 13, 2, 14, 1, 15]

/-- The least length, and the number of bits to be added, for the symbols from `257` on. -/
def matchLengths : Array (Nat × Nat) :=
  #[(3, 0), (4, 0), (5, 0), (6, 0), (7, 0), (8, 0), (9, 0), (10, 0), (11, 1), (13, 1), (15, 1),
    (17, 1), (19, 2), (23, 2), (27, 2), (31, 2), (35, 3), (43, 3), (51, 3), (59, 3), (67, 4),
    (83, 4), (99, 4), (115, 4), (131, 5), (163, 5), (195, 5), (227, 5), (258, 0)]

/-- The least distance, and the number of bits to be added, for each distance symbol. -/
def matchDistances : Array (Nat × Nat) :=
  #[(1, 0), (2, 0), (3, 0), (4, 0), (5, 1), (7, 1), (9, 2), (13, 2), (17, 3), (25, 3), (33, 4),
    (49, 4), (65, 5), (97, 5), (129, 6), (193, 6), (257, 7), (385, 7), (513, 8), (769, 8),
    (1025, 9), (1537, 9), (2049, 10), (3073, 10), (4097, 11), (6145, 11), (8193, 12),
    (12289, 12), (16385, 13), (24577, 13)]

def fixedCodes : Codes where
  literal := .ofLengths (List.replicate 144 8 ++ List.replicate 112 9 ++ List.replicate 24 7 ++
    List.replicate 8 8)
  distance := .ofLengths (List.replicate 32 5)

/-- A number of `count` bits. -/
def Control.gather (purpose : Purpose) (count : Nat) : Control :=
  .bits purpose count 1 0

/-- Repeats `length` bytes from `distance` bytes back, one by one, so that the stretch may run into
its own copy. -/
def copyBack (output : ByteArray) (distance : Nat) : Nat → ByteArray
  | 0 => output
  | length + 1 =>
    let b := if distance ≤ output.size then output[output.size - distance]?.getD 0 else 0
    copyBack (output.push b) distance length

namespace Inflater

/-- Before the first bit. -/
def start : Inflater := ⟨.empty, false, .gather .blockHeader 3⟩

def goto (s : Inflater) (control : Control) : Inflater :=
  { s with control }

def fail (s : Inflater) : Inflater :=
  s.goto .corrupt

def endBlock (s : Inflater) : Inflater :=
  s.goto (if s.isLast then .finished else .gather .blockHeader 3)

def nextSymbol (s : Inflater) (codes : Codes) : Inflater :=
  s.goto (.symbol codes codes.literal)

def emit (s : Inflater) (b : UInt8) : Inflater :=
  { s with output := s.output.push b }

/-- After the distance of a stretch. -/
def takeMatch (s : Inflater) (codes : Codes) (length distance : Nat) : Inflater :=
  let s := { s with output := copyBack s.output distance length }
  s.nextSymbol codes

/-- After a symbol of the distance code. -/
def takeDistance (s : Inflater) (codes : Codes) (length symbol : Nat) : Inflater :=
  match matchDistances[symbol]? with
  | none => s.fail
  | some (base, 0) => s.takeMatch codes length base
  | some (base, extra) => s.goto (.gather (.matchDistance codes length base) extra)

/-- After the length of a stretch. -/
def takeLength (s : Inflater) (codes : Codes) (length : Nat) : Inflater :=
  s.goto (.distance codes length codes.distance)

/-- After a symbol of the literal code. -/
def takeSymbol (s : Inflater) (codes : Codes) (symbol : Nat) : Inflater :=
  if symbol < 256 then (s.emit symbol.toUInt8).nextSymbol codes
  else if symbol = 256 then s.endBlock
  else
    match matchLengths[symbol - 257]? with
    | none => s.fail
    | some (base, 0) => s.takeLength codes base
    | some (base, extra) => s.goto (.gather (.matchLength codes base) extra)

/-- After all path lengths of a block. -/
def takeTable (s : Inflater) (table : Table) : Inflater :=
  let literal := table.lengths.toList.take table.literals
  let distance := table.lengths.toList.drop table.literals
  if [literal, distance].all fun lengths => Code.isComplete lengths || Code.isSparse lengths then
    s.nextSymbol ⟨.ofLengths literal, .ofLengths distance⟩
  else s.fail

/-- After some path lengths of a block. -/
def takeLengths (s : Inflater) (table : Table) (code : Code) : Inflater :=
  let total := table.literals + table.distances
  if table.lengths.size < total then s.goto (.length table code code)
  else if table.lengths.size = total then s.takeTable table
  else s.fail

/-- After a symbol of the code of lengths: a length, or a repetition of the last one or of zero. -/
def takeLengthSymbol (s : Inflater) (table : Table) (code : Code) (symbol : Nat) : Inflater :=
  if symbol < 16 then s.takeLengths { table with lengths := table.lengths.push symbol } code
  else if symbol = 16 then
    match table.lengths.back? with
    | none => s.fail
    | some length => s.goto (.gather (.repetition table code length 3) 2)
  else if symbol = 17 then s.goto (.gather (.repetition table code 0 3) 3)
  else s.goto (.gather (.repetition table code 0 11) 7)

/-- After the path lengths of the code of lengths. Unlike the others, this code must be
complete. -/
def takeCodeLengths (s : Inflater) (table : Table) (given : Array Nat) : Inflater :=
  let lengths := (List.range 19).map fun symbol => given.getD (codeLengthOrder.idxOf symbol) 0
  if Code.isComplete lengths then s.takeLengths table (.ofLengths lengths) else s.fail

/-- After the sizes of the codes of a block. -/
def takeSizes (s : Inflater) (value : Nat) : Inflater :=
  let table : Table := ⟨257 + value % 32, 1 + value / 32 % 32, #[]⟩
  if table.literals ≤ 286 ∧ table.distances ≤ 30 then
    s.goto (.gather (.codeLength table (4 + value / 1024) #[]) 3)
  else s.fail

/-- After the header of a block. -/
def takeHeader (s : Inflater) (value : Nat) (endsByte : Bool) : Inflater :=
  let s := { s with isLast := value % 2 == 1 }
  match value / 2 with
  | 0 => s.goto (if endsByte then .gather .storedSize 16 else .padding)
  | 1 => s.nextSymbol fixedCodes
  | 2 => s.goto (.gather .tableSizes 14)
  | _ => s.fail

/-- After a number of a fixed count of bits. -/
def takeNumber (s : Inflater) (purpose : Purpose) (value : Nat) (endsByte : Bool) : Inflater :=
  match purpose with
  | .blockHeader => s.takeHeader value endsByte
  | .storedSize => s.goto (.gather (.storedCheck value) 16)
  | .storedCheck size =>
    if size + value ≠ 65535 then s.fail
    else if size = 0 then s.endBlock
    else s.goto (.gather (.storedByte size) 8)
  | .storedByte left =>
    let s := s.emit value.toUInt8
    if left ≤ 1 then s.endBlock else s.goto (.gather (.storedByte (left - 1)) 8)
  | .tableSizes => s.takeSizes value
  | .codeLength table left lengths =>
    let lengths := lengths.push value
    if left ≤ 1 then s.takeCodeLengths table lengths
    else s.goto (.gather (.codeLength table (left - 1) lengths) 3)
  | .repetition table code length base =>
    s.takeLengths
      { table with lengths := table.lengths ++ Array.replicate (base + value) length } code
  | .matchLength codes base => s.takeLength codes (base + value)
  | .matchDistance codes length base => s.takeMatch codes length (base + value)

/-- The place in a tree after one more bit. -/
def descend (position : Code) (bit : Bool) : Code :=
  match position with
  | .branch zero one => if bit then one else zero
  | _ => .missing

/-- The inflater after one more bit, which may be the last one of its byte. -/
def step (s : Inflater) (bit endsByte : Bool) : Inflater :=
  match s.control with
  | .bits purpose left weight value =>
    let value := if bit then value + weight else value
    if left ≤ 1 then s.takeNumber purpose value endsByte
    else s.goto (.bits purpose (left - 1) (2 * weight) value)
  | .padding => if endsByte then s.goto (.gather .storedSize 16) else s
  | .length table code position =>
    match descend position bit with
    | .symbol n => s.takeLengthSymbol table code n
    | .branch zero one => s.goto (.length table code (.branch zero one))
    | .missing => s.fail
  | .symbol codes position =>
    match descend position bit with
    | .symbol n => s.takeSymbol codes n
    | .branch zero one => s.goto (.symbol codes (.branch zero one))
    | .missing => s.fail
  | .distance codes length position =>
    match descend position bit with
    | .symbol n => s.takeDistance codes length n
    | .branch zero one => s.goto (.distance codes length (.branch zero one))
    | .missing => s.fail
  | .finished => s
  | .corrupt => s

/-- The inflater after one more byte, whose lowest bit comes first. -/
def byte (s : Inflater) (b : UInt8) : Inflater :=
  (List.range 8).foldl (fun s i => s.step (b.toNat.testBit i) (i == 7)) s

end Inflater

/-- What becomes of a deflate stream. -/
inductive Inflated
  /-- The bytes of the stream, and what follows it. -/
  | complete (output : List UInt8) (rest : List UInt8)
  /-- The input ends before the stream; these bytes come before that. -/
  | cut (output : List UInt8)
  /-- The input is no stream; these bytes come before that shows, and that input after it. -/
  | corrupt (output : List UInt8) (rest : List UInt8)
  deriving DecidableEq

def Inflater.run (s : Inflater) : List UInt8 → Inflated
  | [] => .cut s.output.data.toList
  | b :: rest =>
    let s := s.byte b
    match s.control with
    | .finished => .complete s.output.data.toList rest
    | .corrupt => .corrupt s.output.data.toList rest
    | _ => run s rest

/-- The bytes that come before the end of the stream, or before the fault in it. -/
def Inflated.output : Inflated → List UInt8
  | complete output _ => output
  | cut output => output
  | corrupt output _ => output

def inflate (bytes : List UInt8) : Inflated :=
  Inflater.start.run bytes

end PatternAudit.Gzip
