/-!
# Code trees

A symbol of a compressed stream is a path of bits through a binary tree. The tree is given by the
lengths of the paths alone: paths of one length are numbered consecutively in the order of their
symbols, and shorter ones come before longer ones.
-/

namespace PatternAudit.Gzip

/-- A tree of bit paths. `missing` stands where no path leads. -/
inductive Code
  | missing
  | symbol (n : Nat)
  | branch (zero one : Code)
  deriving DecidableEq

namespace Code

/-- The tree with one more path. -/
def insert (symbolNumber : Nat) : Code → List Bool → Code
  | _, [] => symbol symbolNumber
  | branch zero one, bit :: path =>
    if bit then branch zero (insert symbolNumber one path)
    else branch (insert symbolNumber zero path) one
  | c, bit :: path =>
    if bit then branch c (insert symbolNumber missing path)
    else branch (insert symbolNumber missing path) c

/-- The longest path. -/
def maxLength : Nat := 15

/-- The bits of a number, the highest first. -/
def path (length number : Nat) : List Bool :=
  (List.range length).map fun i => number.testBit (length - 1 - i)

/-- How much of the paths of the longest length begin with one of the given lengths. -/
def weight (lengths : List Nat) : Nat :=
  lengths.foldl (fun n length => if length = 0 then n else n + Nat.pow 2 (maxLength - length)) 0

/-- The number of the first path of each length, by length. -/
def firstNumbers (lengths : List Nat) : Array Nat :=
  ((List.range maxLength).foldl (fun (state : Array Nat × Nat) length =>
    let number := 2 * (state.2 + if length = 0 then 0 else lengths.count length)
    (state.1.push number, number)) (#[0], 0)).1

/-- The tree for the lengths of the paths of the symbols `0, 1, …`, where length `0` means that the
symbol has no path. -/
def ofLengths (lengths : List Nat) : Code :=
  (lengths.zipIdx.foldl (fun (state : Code × Array Nat) entry =>
    let (length, symbolNumber) := entry
    if length = 0 then state
    else
      let number := state.2.getD length 0
      (state.1.insert symbolNumber (path length number),
        state.2.setIfInBounds length (number + 1))) (missing, firstNumbers lengths)).1

/-- Whether the lengths leave no path free and use none twice. -/
def isComplete (lengths : List Nat) : Bool :=
  weight lengths == Nat.pow 2 maxLength

/-- Whether no symbol has a path, or only one, which is a single bit. -/
def isSparse (lengths : List Nat) : Bool :=
  match lengths.filter (· != 0) with
  | [] => true
  | [length] => length == 1
  | _ => false

end Code

end PatternAudit.Gzip
