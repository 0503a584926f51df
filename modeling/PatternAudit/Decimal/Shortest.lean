import PatternAudit.Decimal.Double

/-!
# The fewest digits that read back

Every double is the nearest one to a whole interval of numbers. Its shortest decimal is, of all
decimals in that interval, one with the fewest digits, and of those the nearest to the double.

For `1, 2, …, 17` digits the decimals with that many digits are a grid. If any point of the grid
lies in the interval, then so does one of the two points next to the double, so it is enough to
try those two.
-/

namespace PatternAudit

/-- The number `coefficient * 10 ^ exponent`. -/
structure Decimal where
  coefficient : Nat
  exponent : Int
  deriving DecidableEq

namespace Decimal

/-- The same number with no zero at the end of its coefficient. -/
def normalize (d : Decimal) : Decimal :=
  if h : d.coefficient ≠ 0 ∧ d.coefficient % 10 = 0 then
    normalize ⟨d.coefficient / 10, d.exponent + 1⟩
  else d
termination_by d.coefficient
decreasing_by exact Nat.div_lt_self (Nat.pos_of_ne_zero h.1) (by decide)

def digitCount (n : Nat) : Nat :=
  (Nat.toDigits 10 n).length

/-- A positive number `value / den` and the ends `low / den`, `high / den` of the interval of
numbers that round to it. The ends belong to the interval if `closed`. -/
structure Interval where
  low : Nat
  value : Nat
  high : Nat
  den : Nat
  closed : Bool

namespace Interval

/-- The interval of the double `significand * 2 ^ exponent`. It reaches half way to the next
doubles; the one below is only half as far away when the significand is a power of two, unless
there is no smaller power. Ends round to the double whose significand is even. -/
def ofDouble (significand : Nat) (exponent : Int) : Interval :=
  let narrow := significand = Nat.pow 2 52 ∧ exponent ≠ -1074
  let closed := significand % 2 == 0
  let below := if narrow then 1 else 2
  match exponent - 2 with
  | .ofNat k =>
    let unit := Nat.pow 2 k
    ⟨(4 * significand - below) * unit, 4 * significand * unit, (4 * significand + 2) * unit, 1,
      closed⟩
  | .negSucc k =>
    ⟨4 * significand - below, 4 * significand, 4 * significand + 2, Nat.pow 2 (k + 1), closed⟩

/-- The power of ten of the first digit of the value. -/
def magnitude (i : Interval) : Int :=
  if i.den ≤ i.value then (digitCount (i.value / i.den) : Int) - 1
  else
    let n := digitCount (i.den / i.value)
    if i.den ≤ i.value * Nat.pow 10 (n - 1) then -((n : Int) - 1) else -(n : Int)

/-- Whether `d` lies in the interval. -/
def contains (i : Interval) (d : Decimal) : Bool :=
  let (point, unit) := match d.exponent with
    | .ofNat k => (d.coefficient * Nat.pow 10 k * i.den, 1)
    | .negSucc k => (d.coefficient * i.den, Nat.pow 10 (k + 1))
  if i.closed then i.low * unit ≤ point && point ≤ i.high * unit
  else i.low * unit < point && point < i.high * unit

/-- The value in units of `10 ^ exponent`. -/
def inUnits (i : Interval) : Int → Fraction
  | .ofNat k => ⟨i.value, i.den * Nat.pow 10 k⟩
  | .negSucc k => ⟨i.value * Nat.pow 10 (k + 1), i.den⟩

/-- The nearest decimal of the interval whose last digit stands for `10 ^ exponent`, if there is
one. Of two that are equally near, the even one. -/
def nearest? (i : Interval) (exponent : Int) : Option Decimal :=
  let f := i.inUnits exponent
  let below : Decimal := ⟨f.num / f.den, exponent⟩
  let above : Decimal := ⟨f.num / f.den + 1, exponent⟩
  match i.contains below, i.contains above with
  | true, true => some ⟨f.round, exponent⟩
  | true, false => some below
  | false, true => some above
  | false, false => none

/-- Tries the grids of `digits`, `digits + 1`, … digits, `tries` of them. -/
def search (i : Interval) (digits : Nat) : Nat → Decimal
  | 0 => ⟨(i.inUnits (i.magnitude - 16)).round, i.magnitude - 16⟩
  | tries + 1 =>
    match i.nearest? (i.magnitude - (digits : Int) + 1) with
    | some d => d
    | none => search i (digits + 1) tries

end Interval

/-- The shortest decimal of the positive double `significand * 2 ^ exponent`. -/
def shortest (significand : Nat) (exponent : Int) : Decimal :=
  (Interval.search (.ofDouble significand exponent) 1 17).normalize

end Decimal

end PatternAudit
