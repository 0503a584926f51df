import PatternAudit.Decimal.Shortest

/-!
# Writing a decimal

A decimal is written plainly or with a power of ten, by where its first digit stands.
-/

namespace PatternAudit.Decimal

/-- Which powers of ten of the first digit are written plainly. -/
structure Layout where
  leastPlain : Int
  greatestPlain : Int

def zeros (n : Nat) : List Char :=
  List.replicate n '0'

/-- All digits around the point, with at least one on each side. -/
def plain (d : Decimal) : List Char :=
  let digits := Nat.toDigits 10 d.coefficient
  match d.exponent with
  | .ofNat k => digits ++ zeros k ++ ['.', '0']
  | .negSucc k =>
    if k + 1 < digits.length then
      digits.take (digits.length - (k + 1)) ++ '.' :: digits.drop (digits.length - (k + 1))
    else '0' :: '.' :: zeros (k + 1 - digits.length) ++ digits

/-- One digit before the point, the power of ten with its sign after the mark. -/
def powered (d : Decimal) (power : Int) : List Char :=
  let mantissa := match Nat.toDigits 10 d.coefficient with
    | first :: second :: rest => first :: '.' :: second :: rest
    | short => short
  let sign := if power < 0 then '-' else '+'
  mantissa ++ 'e' :: sign :: Nat.toDigits 10 power.natAbs

/-- The text of a decimal with a nonzero coefficient. -/
def write (layout : Layout) (d : Decimal) : List Char :=
  let power := d.exponent + (digitCount d.coefficient : Int) - 1
  if layout.leastPlain ≤ power ∧ power ≤ layout.greatestPlain then d.plain else d.powered power

end PatternAudit.Decimal
