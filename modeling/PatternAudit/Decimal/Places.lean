import PatternAudit.Decimal.Double

/-!
# A fixed number of places

The columns of a delimited row show times and rates with at most five places. The exact value of
the double is rounded once, a half to the even neighbour; zeros at the end of the fraction are not
written, nor is a separator without digits after it, nor the sign of a number that rounds to zero.
-/

namespace PatternAudit.Places

/-- The number of places that are kept. -/
def count : Nat := 5

/-- The digits of `n`, filled up with zeros in front to at least `width` of them. -/
def paddedDigits (width n : Nat) : List Char :=
  let digits := Nat.toDigits 10 n
  List.replicate (width - digits.length) '0' ++ digits

/-- A list of digits without the zeros at its end. -/
def trimZeros (digits : List Char) : List Char :=
  (digits.reverse.dropWhile (· == '0')).reverse

/-- The digits after the separator of a number of units of the last place. -/
def fractionDigits (units : Nat) : List Char :=
  trimZeros (paddedDigits count (units % Nat.pow 10 count))

/-- The text of a number of units of the last place. -/
def unitsText (separator : Char) (negative : Bool) (units : Nat) : String :=
  let sign := if negative && units != 0 then ['-'] else []
  let whole := Nat.toDigits 10 (units / Nat.pow 10 count)
  let fraction := fractionDigits units
  String.ofList (sign ++ whole ++ if fraction.isEmpty then [] else separator :: fraction)

/-- How many units of the last place the number `significand * 2 ^ exponent` rounds to. -/
def units (significand : Nat) (exponent : Int) : Nat :=
  let f := Fraction.scaled significand exponent
  Fraction.round ⟨f.num * Nat.pow 10 count, f.den⟩

/-- The text of a double, with `separator` between its whole part and its fraction. -/
def text (x : Float) (separator : Char) : String :=
  match Double.ofFloat x with
  | .finite negative significand exponent =>
    unitsText separator negative (units significand exponent)
  | .infinite false => "inf"
  | .infinite true => "-inf"
  | .notANumber => "NaN"

end PatternAudit.Places
