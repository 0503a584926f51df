import PatternAudit.Json.Byte
import PatternAudit.Json.Defect

/-!
# Reading a number

A number is read byte by byte. Its digits make up a whole significand as long as that fits in 64
bits. Digits beyond that are not kept: before the point each of them raises the power of ten by
one, after the point they are dropped. A number with a point, an exponent or too many digits is the
double that one multiplication or division of the significand by a power of ten gives.
-/

namespace PatternAudit.Json

/-- A number as it was written. `negative n` stands for `-n`, where `n` is not zero and fits in 63
bits and a sign. -/
inductive Number
  | natural (n : Nat)
  | negative (n : Nat)
  | float (x : Float)

/-- The largest significand. -/
def maxSignificand : Nat := Nat.pow 2 64 - 1

/-- The largest exponent that can be written. -/
def maxExponent : Nat := Nat.pow 2 31 - 1

/-- The significand with one more digit, if it still fits. -/
def appendDigit? (significand digit : Nat) : Option Nat :=
  let next := 10 * significand + digit
  if next ≤ maxSignificand then some next else none

/-- How far a number has been read. `power` is the power of ten of the significand's last digit. -/
inductive NumberPhase
  /-- After the minus sign. -/
  | sign
  /-- After a first digit that is zero. -/
  | zero
  | whole (significand : Nat)
  /-- In whole digits that are no longer kept. -/
  | long (significand : Nat) (power : Int)
  /-- After the point, before any digit. -/
  | point (significand : Nat) (power : Int)
  | fraction (significand : Nat) (power : Int)
  /-- In fraction digits that are no longer kept. -/
  | fine (significand : Nat) (power : Int)
  /-- After the letter that announces the exponent. -/
  | mark (significand : Nat) (power : Int)
  /-- After the sign of the exponent. -/
  | signedMark (significand : Nat) (power : Int) (down : Bool)
  | exponent (significand : Nat) (power : Int) (down : Bool) (value : Nat)
  /-- In an exponent so large that the number is zero. -/
  | vanished
  deriving DecidableEq

structure NumberScan where
  negative : Bool
  phase : NumberPhase
  deriving DecidableEq

namespace NumberPhase

/-- The phase after a digit of the exponent. -/
def exponentDigit (significand : Nat) (power : Int) (down : Bool) (value digit : Nat) :
    Except Defect NumberPhase :=
  let next := 10 * value + digit
  if next ≤ maxExponent then .ok (.exponent significand power down next)
  else if significand = 0 ∨ down then .ok .vanished
  else .error .hugeNumber

/-- The phase after a digit. -/
def digit (phase : NumberPhase) (d : Nat) : Except Defect NumberPhase :=
  match phase with
  | sign => .ok (if d = 0 then zero else whole d)
  | zero => .error .badNumber
  | whole m =>
    match appendDigit? m d with
    | some n => .ok (whole n)
    | none => .ok (long m 1)
  | long m p => .ok (long m (p + 1))
  | point m p | fraction m p =>
    match appendDigit? m d with
    | some n => .ok (fraction n (p - 1))
    | none => .ok (fine m p)
  | fine m p => .ok (fine m p)
  | mark m p => exponentDigit m p false 0 d
  | signedMark m p down => exponentDigit m p down 0 d
  | exponent m p down value => exponentDigit m p down value d
  | vanished => .ok vanished

/-- The phase after a point, if one may stand there. -/
def point? : NumberPhase → Option NumberPhase
  | zero => some (point 0 0)
  | whole m => some (point m 0)
  | long m p => some (point m p)
  | _ => none

/-- The phase after the letter of the exponent, if one may stand there. -/
def mark? : NumberPhase → Option NumberPhase
  | zero => some (mark 0 0)
  | whole m => some (mark m 0)
  | long m p | fraction m p | fine m p => some (mark m p)
  | _ => none

/-- Whether the bytes so far are a number. -/
def isComplete : NumberPhase → Bool
  | sign | point .. | mark .. | signedMark .. => false
  | _ => true

/-- The phase after one more byte, or `none` if the number has ended before it. -/
def step (phase : NumberPhase) (b : UInt8) : Except Defect (Option NumberPhase) :=
  if isDigit b then (phase.digit (digitValue b)).map some
  else if b = byte '.' ∧ phase.point?.isSome then .ok phase.point?
  else if (b = byte 'e' ∨ b = byte 'E') ∧ phase.mark?.isSome then .ok phase.mark?
  else
    match phase with
    | mark m p =>
      if b = byte '+' then .ok (some (signedMark m p false))
      else if b = byte '-' then .ok (some (signedMark m p true))
      else .error .badNumber
    | _ => if phase.isComplete then .ok none else .error .badNumber

end NumberPhase

/-- The double nearest to a power of ten. -/
def powerOfTen (k : Nat) : Float :=
  Float.ofScientific 1 false k

/-- The largest power of ten that is a double. -/
def maxPower : Nat := 308

/-- Divides by a power of ten, by the largest one as often as it takes. -/
def shrink (x : Float) (k : Nat) : Float :=
  if k ≤ maxPower then x / powerOfTen k
  else if x == 0.0 then x
  else shrink (x / powerOfTen maxPower) (k - maxPower)
termination_by k
decreasing_by simp only [maxPower] at *; omega

/-- The double for `significand * 10 ^ power`, unless it is too large. -/
def scale? (significand : Nat) (power : Int) : Option Float :=
  let x := significand.toUInt64.toFloat
  match power with
  | .negSucc k => some (shrink x (k + 1))
  | .ofNat k =>
    if k ≤ maxPower then
      let y := x * powerOfTen k
      if y.isInf then none else some y
    else if x == 0.0 then some x
    else none

namespace NumberScan

/-- The scan after the first byte of a number, a minus sign or a digit. -/
def start (b : UInt8) : NumberScan :=
  if b = byte '-' then ⟨true, .sign⟩
  else if b = byte '0' then ⟨false, .zero⟩
  else ⟨false, .whole (digitValue b)⟩

def step (s : NumberScan) (b : UInt8) : Except Defect (Option NumberScan) :=
  (s.phase.step b).map fun next => next.map fun phase => ⟨s.negative, phase⟩

/-- A double with the sign of the number. -/
def signed (s : NumberScan) (x : Float) : Number :=
  .float (if s.negative then -x else x)

/-- The number of some digits and nothing else. A negative number that is zero, or too large for a
sign and 63 bits, is a double. -/
def whole (s : NumberScan) (n : Nat) : Number :=
  if !s.negative then .natural n
  else if n = 0 ∨ Nat.pow 2 63 < n then s.signed n.toUInt64.toFloat
  else .negative n

def scaled (s : NumberScan) (significand : Nat) (power : Int) : Except Defect Number :=
  match scale? significand power with
  | some x => .ok (s.signed x)
  | none => .error .hugeNumber

/-- The number that has been read. Before it is complete it has too few digits. -/
def value (s : NumberScan) : Except Defect Number :=
  match s.phase with
  | .zero => .ok (s.whole 0)
  | .whole n => .ok (s.whole n)
  | .long m p | .fraction m p | .fine m p => s.scaled m p
  | .exponent m p down e => s.scaled m (if down then p - e else p + e)
  | .vanished => .ok (s.signed 0.0)
  | .sign | .point .. | .mark .. | .signedMark .. => .error .endInValue

end NumberScan

end PatternAudit.Json
