/-!
# Doubles as exact numbers

A finite double is a sign, a whole significand and a power of two. Text is made from these parts in
whole arithmetic, so that no rounding happens but the one that the text asks for.
-/

namespace PatternAudit

/-- A double taken apart. A finite one is `significand * 2 ^ exponent`, with its sign. -/
inductive Double
  | finite (negative : Bool) (significand : Nat) (exponent : Int)
  | infinite (negative : Bool)
  | notANumber
  deriving DecidableEq

namespace Double

/-- Takes the bits of a double apart: one for the sign, eleven for the exponent, fifty-two for the
significand, whose leading bit is implied unless the exponent bits are zero. -/
def ofBits (bits : UInt64) : Double :=
  let n := bits.toNat
  let negative := n / Nat.pow 2 63 % 2 == 1
  let field : Nat := n / Nat.pow 2 52 % Nat.pow 2 11
  let fraction := n % Nat.pow 2 52
  if field = Nat.pow 2 11 - 1 then
    if fraction = 0 then infinite negative else notANumber
  else if field = 0 then finite negative fraction (-1074)
  else finite negative (Nat.pow 2 52 + fraction) ((field : Int) - 1075)

def ofFloat (x : Float) : Double :=
  ofBits x.toBits

end Double

/-- A nonnegative rational number, as it comes from a significand and a power of two. -/
structure Fraction where
  num : Nat
  den : Nat

namespace Fraction

/-- The number `significand * 2 ^ exponent`. -/
def scaled (significand : Nat) : Int → Fraction
  | .ofNat k => ⟨significand * Nat.pow 2 k, 1⟩
  | .negSucc k => ⟨significand, Nat.pow 2 (k + 1)⟩

/-- The nearest whole number to `num / den`; a half goes to the even neighbour. -/
def round (f : Fraction) : Nat :=
  let q := f.num / f.den
  let r := f.num % f.den
  if 2 * r < f.den then q
  else if f.den < 2 * r then q + 1
  else if q % 2 = 0 then q else q + 1

end Fraction

end PatternAudit
