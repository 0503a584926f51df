import Mathlib.Algebra.Order.Field.Rat
import Mathlib.Algebra.Order.Ring.Abs
import Mathlib.Data.List.DropRight
import Mathlib.Tactic.Linarith
import Std.Data.String.ToNat
import PatternAudit.Decimal.Places
import PatternAudit.Proofs.ExactDouble

/-!
# Numbers with at most five places

A number in a delimited row is the text of a `Numeral`: a sign, digits of the whole part, digits of
the fraction, in the one way that leaves nothing superfluous. The text of a numeral can be taken
apart again (`Numeral.text_injective`), so it stands for one number, `Numeral.value`.

* `Fraction.abs_round_sub_value_le`: rounding moves a number by half a unit at most.
* `Numeral.ofUnits` counts units of the last place. Taking zeros from the end of the fraction does
  not change the number (`Numeral.value_ofUnits`), because each of them stands for nothing and
  makes the digits before it count ten times less.

The value of a double is taken exactly, so half a unit of the fifth place is all that is lost,
whatever the size of the double.

The text is put together from what is to be seen. It is the same as when all five places are written
and what is superfluous is then taken away (`toList_text_eq_withSeparator`).
-/

namespace PatternAudit

/-! ## Rounding -/

namespace Fraction

def value (f : Fraction) : ℚ :=
  f.num / f.den

theorem den_scaled_pos (significand : Nat) (exponent : Int) :
    0 < (scaled significand exponent).den := by
  cases exponent with
  | ofNat k => exact Nat.one_pos
  | negSucc k => exact Nat.two_pow_pos (k + 1)

theorem value_scaled (significand : Nat) (exponent : Int) :
    (scaled significand exponent).value = significand * 2 ^ exponent := by
  cases exponent with
  | ofNat k => simp [value, scaled]
  | negSucc k => simp [value, scaled, div_eq_mul_inv]

/-- The two sides of the rounding error, without division. -/
theorem round_bounds {f : Fraction} (hDen : 0 < f.den) :
    2 * (f.den * f.round) ≤ 2 * f.num + f.den ∧ 2 * f.num ≤ 2 * (f.den * f.round) + f.den := by
  have hDivision := Nat.div_add_mod f.num f.den
  have hRest := Nat.mod_lt f.num hDen
  have hNext : f.den * (f.num / f.den + 1) = f.den * (f.num / f.den) + f.den := Nat.mul_succ ..
  unfold round
  dsimp only
  split_ifs with hBelow hAbove hEven <;> constructor <;> omega

theorem abs_round_sub_value_le {f : Fraction} (hDen : 0 < f.den) :
    |(f.round : ℚ) - f.value| ≤ 1 / 2 := by
  obtain ⟨hUpper, hLower⟩ := round_bounds hDen
  have hPos : (0 : ℚ) < f.den := Nat.cast_pos.mpr hDen
  have hUpper' : 2 * (f.den * f.round : ℚ) ≤ 2 * f.num + f.den := by exact_mod_cast hUpper
  have hLower' : 2 * (f.num : ℚ) ≤ 2 * (f.den * f.round) + f.den := by exact_mod_cast hLower
  rw [value, abs_sub_le_iff]
  constructor
  · rw [sub_le_iff_le_add, ← sub_le_iff_le_add', le_div_iff₀ hPos]
    linarith
  · rw [sub_le_iff_le_add, div_le_iff₀ hPos]
    linarith

end Fraction

namespace Places

/-! ## Numerals -/

/-- A number in the form in which it is written. -/
@[ext]
structure Numeral where
  negative : Bool
  whole : List Char
  fraction : List Char
  whole_ne_nil : whole ≠ []
  isDigit_of_mem_whole : ∀ c ∈ whole, c.isDigit
  whole_eq_zero : whole.head? = some '0' → whole = ['0']
  isDigit_of_mem_fraction : ∀ c ∈ fraction, c.isDigit
  length_fraction_le : fraction.length ≤ 5
  getLast?_fraction_ne : fraction.getLast? ≠ some '0'
  /-- Zero has no sign. -/
  ne_zero_of_negative : negative → ¬ (whole = ['0'] ∧ fraction = [])

namespace Numeral

/-- The part of the text after the whole part. -/
def places (separator : Char) (n : Numeral) : List Char :=
  if n.fraction.isEmpty then [] else separator :: n.fraction

def text (separator : Char) (n : Numeral) : List Char :=
  (if n.negative then ['-'] else []) ++ n.whole ++ n.places separator

/-- The number without its sign. -/
def magnitude (n : Numeral) : ℚ :=
  Nat.ofDigitChars 10 (n.whole ++ n.fraction) 0 / 10 ^ n.fraction.length

def value (n : Numeral) : ℚ :=
  (if n.negative then -1 else 1) * n.magnitude

theorem mem_text {n : Numeral} {separator c : Char} (h : c ∈ n.text separator) :
    c = '-' ∨ c = separator ∨ c.isDigit := by
  simp only [text, places, List.mem_append] at h
  rcases h with (hSign | hWhole) | hPlaces
  · left
    split_ifs at hSign
    · exact List.mem_singleton.mp hSign
    · cases hSign
  · exact .inr (.inr (n.isDigit_of_mem_whole c hWhole))
  · right
    split_ifs at hPlaces
    · cases hPlaces
    · exact (List.mem_cons.mp hPlaces).imp_right (n.isDigit_of_mem_fraction c)

section

variable (n : Numeral) {separator : Char}

theorem exists_whole_eq_cons : ∃ first rest, n.whole = first :: rest ∧ first ≠ '-' := by
  obtain ⟨first, rest, hWhole⟩ := List.exists_cons_of_ne_nil n.whole_ne_nil
  have hDigit := n.isDigit_of_mem_whole first (by simp [hWhole])
  refine ⟨first, rest, hWhole, ?_⟩
  rintro rfl
  cases hDigit

theorem negative_eq_head? : n.negative = ((n.text separator).head? == some '-') := by
  obtain ⟨first, rest, hWhole, hFirst⟩ := n.exists_whole_eq_cons
  cases h : n.negative with
  | true => simp [text, h]
  | false => simp [text, h, hWhole, hFirst]

theorem dropWhile_text :
    (n.text separator).dropWhile (· == '-') = n.whole ++ n.places separator := by
  obtain ⟨first, rest, hWhole, hFirst⟩ := n.exists_whole_eq_cons
  cases h : n.negative with
  | true => simp [text, h, hWhole, hFirst]
  | false => simp [text, h, hWhole, hFirst]

variable (hSeparator : separator.isDigit = false)

include hSeparator

theorem whole_eq_takeWhile : n.whole = (n.whole ++ n.places separator).takeWhile Char.isDigit := by
  rw [List.takeWhile_append_of_pos n.isDigit_of_mem_whole, places]
  split_ifs <;> simp [hSeparator]

theorem fraction_eq_tail :
    n.fraction = ((n.whole ++ n.places separator).dropWhile Char.isDigit).tail := by
  rw [List.dropWhile_append_of_pos n.isDigit_of_mem_whole, places]
  split_ifs with hFraction
  · simpa using hFraction
  · simp [hSeparator]

end

/-- What a numeral consists of can be read off its text. -/
theorem text_injective {separator : Char} (hSeparator : separator.isDigit = false) {m n : Numeral}
    (h : m.text separator = n.text separator) : m = n := by
  have hParts : m.whole ++ m.places separator = n.whole ++ n.places separator := by
    rw [← dropWhile_text, h, dropWhile_text]
  ext1
  · rw [m.negative_eq_head?, h, ← n.negative_eq_head?]
  · rw [m.whole_eq_takeWhile hSeparator, hParts, ← n.whole_eq_takeWhile hSeparator]
  · rw [m.fraction_eq_tail hSeparator, hParts, ← n.fraction_eq_tail hSeparator]

end Numeral

/-! ## Digits -/

theorem isAlphanum_of_isDigit {c : Char} (h : c.isDigit) : c.isAlphanum := by
  rw [Char.isAlphanum, h, Bool.or_true]

theorem isDigit_of_mem_toDigits {n : Nat} {c : Char} (h : c ∈ Nat.toDigits 10 n) : c.isDigit :=
  Nat.isDigit_of_mem_toDigits (by decide) (by decide) h

/-- Only zero begins with the digit zero. -/
theorem head?_toDigits_ne {n : Nat} (hn : 0 < n) : (Nat.toDigits 10 n).head? ≠ some '0' := by
  induction n using Nat.strongRecOn with
  | ind n ih =>
    rw [Nat.toDigits_eq_if (by decide)]
    split_ifs with hSmall
    · intro hHead
      exact hn.ne' (Nat.digitChar_eq_zero.mp (Option.some.inj hHead))
    · have hHead := ih (n / 10) (by omega) (by omega)
      rwa [List.head?_append_of_ne_nil _ Nat.toDigits_ne_nil]

theorem isDigit_of_mem_paddedDigits {width n : Nat} {c : Char} (h : c ∈ paddedDigits width n) :
    c.isDigit := by
  rcases List.mem_append.mp h with hZero | hDigit
  · rw [List.eq_of_mem_replicate hZero]
    rfl
  · exact isDigit_of_mem_toDigits hDigit

section

variable {width n : Nat} (hWidth : 0 < width) (hn : n < 10 ^ width)

include hWidth hn

theorem length_paddedDigits : (paddedDigits width n).length = width := by
  have hLength := (Nat.length_toDigits_le_iff (by decide) hWidth).mpr hn
  rw [paddedDigits, List.length_append, List.length_replicate]
  omega

theorem ofDigitChars_paddedDigits (before : Nat) :
    Nat.ofDigitChars 10 (paddedDigits width n) before = 10 ^ width * before + n := by
  rw [Nat.ofDigitChars_eq_ofDigitChars_zero, length_paddedDigits hWidth hn, paddedDigits,
    Nat.ofDigitChars_append, Nat.ofDigitChars_replicate_zero, Nat.mul_zero,
    Nat.ofDigitChars_ten_toDigits]

end

theorem exists_eq_trimZeros_append (digits : List Char) :
    ∃ k, digits = trimZeros digits ++ List.replicate k '0' := by
  have hZeros : ∀ c ∈ digits.rtakeWhile (· == '0'), c = '0' := by
    intro c hc
    simpa using List.mem_rtakeWhile_imp hc
  refine ⟨(digits.rtakeWhile (· == '0')).length, ?_⟩
  rw [← List.eq_replicate_of_mem hZeros]
  exact List.rdropWhile_append_rtakeWhile.symm

theorem getLast?_trimZeros_ne (digits : List Char) : (trimZeros digits).getLast? ≠ some '0' := by
  intro hZero
  have hNil : trimZeros digits ≠ [] := by
    intro hNil
    rw [hNil] at hZero
    cases hZero
  have hLast := List.rdropWhile_last_not (· == '0') digits hNil
  rw [List.getLast?_eq_some_getLast hNil] at hZero
  exact hLast (beq_iff_eq.mpr (Option.some.inj hZero))

/-! ## Units of the last place -/

theorem fractionDigits_eq (units : Nat) :
    fractionDigits units = trimZeros (paddedDigits 5 (units % 10 ^ 5)) :=
  rfl

/-- The fraction with the zeros that are not written has five digits, and together with the whole
part they are the digits of the number of units. -/
theorem exists_zeros (units : Nat) :
    ∃ k, (fractionDigits units).length + k = 5 ∧
      10 ^ k * Nat.ofDigitChars 10 (Nat.toDigits 10 (units / 10 ^ 5) ++ fractionDigits units) 0 =
        units := by
  have hLt : units % 10 ^ 5 < 10 ^ 5 := Nat.mod_lt units (by decide)
  obtain ⟨k, hk⟩ := exists_eq_trimZeros_append (paddedDigits 5 (units % 10 ^ 5))
  rw [← fractionDigits_eq] at hk
  refine ⟨k, ?_, ?_⟩
  · have hLength := length_paddedDigits (by decide) hLt
    rwa [hk, List.length_append, List.length_replicate] at hLength
  · have hUnits := ofDigitChars_paddedDigits (by decide) hLt (units / 10 ^ 5)
    rw [Nat.div_add_mod, hk, Nat.ofDigitChars_append, Nat.ofDigitChars_replicate_zero] at hUnits
    rw [Nat.ofDigitChars_append, Nat.ofDigitChars_ten_toDigits, hUnits]

theorem isDigit_of_mem_fractionDigits {units : Nat} {c : Char} (h : c ∈ fractionDigits units) :
    c.isDigit :=
  isDigit_of_mem_paddedDigits ((List.rdropWhile_prefix _ _).subset h)

namespace Numeral

/-- The numeral of a number of units of the fifth place. -/
def ofUnits (negative : Bool) (units : Nat) : Numeral where
  negative := negative && units != 0
  whole := Nat.toDigits 10 (units / 10 ^ 5)
  fraction := fractionDigits units
  whole_ne_nil := Nat.toDigits_ne_nil
  isDigit_of_mem_whole _ := isDigit_of_mem_toDigits
  whole_eq_zero hHead := by
    rcases Nat.eq_zero_or_pos (units / 10 ^ 5) with hZero | hPos
    · rw [hZero, Nat.toDigits_zero]
    · exact absurd hHead (head?_toDigits_ne hPos)
  isDigit_of_mem_fraction _ := isDigit_of_mem_fractionDigits
  length_fraction_le := by
    obtain ⟨k, hLength, -⟩ := exists_zeros units
    omega
  getLast?_fraction_ne := getLast?_trimZeros_ne _
  ne_zero_of_negative hNegative := by
    rintro ⟨hWhole, hFraction⟩
    obtain ⟨k, -, hUnits⟩ := exists_zeros units
    have hZero : units = 0 := by
      rw [← hUnits, hWhole, hFraction]
      rfl
    rw [hZero] at hNegative
    simp at hNegative

theorem toList_unitsText (separator : Char) (negative : Bool) (units : Nat) :
    (unitsText separator negative units).toList = (ofUnits negative units).text separator := by
  rw [unitsText, String.toList_ofList]
  rfl

theorem magnitude_ofUnits (negative : Bool) (units : Nat) :
    (ofUnits negative units).magnitude = units / 10 ^ 5 := by
  obtain ⟨k, hLength, hUnits⟩ := exists_zeros units
  have hUnits' : (10 : ℚ) ^ k * Nat.ofDigitChars 10
      (Nat.toDigits 10 (units / 10 ^ 5) ++ fractionDigits units) 0 = units := by
    exact_mod_cast hUnits
  have hPower : (10 : ℚ) ^ 5 = 10 ^ k * 10 ^ (fractionDigits units).length := by
    rw [← hLength, pow_add, mul_comm]
  have hPos : (0 : ℚ) < 10 ^ k := by positivity
  rw [← hUnits', hPower, mul_div_mul_left _ _ hPos.ne']
  rfl

theorem value_ofUnits (negative : Bool) (units : Nat) :
    (ofUnits negative units).value = (if negative then -1 else 1) * (units / 10 ^ 5) := by
  rw [value, magnitude_ofUnits]
  change (if (negative && units != 0) = true then (-1 : ℚ) else 1) * _ = _
  rcases Nat.eq_zero_or_pos units with rfl | hPos
  · simp
  · simp [hPos.ne']

end Numeral

/-! ## Doubles -/

theorem abs_units_sub_le (significand : Nat) (exponent : Int) :
    |(units significand exponent / 10 ^ 5 : ℚ) - significand * 2 ^ exponent| ≤ 5 / 10 ^ 6 := by
  have hValue : Fraction.value ⟨(Fraction.scaled significand exponent).num * 10 ^ 5,
      (Fraction.scaled significand exponent).den⟩ = significand * 2 ^ exponent * 10 ^ 5 := by
    rw [← Fraction.value_scaled, Fraction.value, Fraction.value]
    push_cast
    ring
  have hRound :
      |(units significand exponent : ℚ) - significand * 2 ^ exponent * 10 ^ 5| ≤ 1 / 2 := by
    rw [← hValue]
    exact Fraction.abs_round_sub_value_le (Fraction.den_scaled_pos significand exponent)
  rw [abs_le] at hRound ⊢
  constructor <;> linarith

theorem toList_text_finite {x : Float} {negative : Bool} {significand : Nat} {exponent : Int}
    (hx : Double.ofFloat x = .finite negative significand exponent) (separator : Char) :
    (text x separator).toList =
      (Numeral.ofUnits negative (units significand exponent)).text separator := by
  rw [text, hx]
  exact Numeral.toList_unitsText ..

theorem mem_text {x : Float} {separator c : Char} (h : c ∈ (text x separator).toList) :
    c = '-' ∨ c = separator ∨ c.isAlphanum := by
  have hWord (word : String) (hAll : word.toList.all fun c => c == '-' || c.isAlphanum)
      (hc : c ∈ word.toList) : c = '-' ∨ c = separator ∨ c.isAlphanum := by
    have hChar := List.all_eq_true.mp hAll c hc
    rw [Bool.or_eq_true, beq_iff_eq] at hChar
    exact hChar.imp_right .inr
  cases hx : Double.ofFloat x with
  | finite negative significand exponent =>
    rw [toList_text_finite hx] at h
    exact (Numeral.mem_text h).imp_right (Or.imp_right isAlphanum_of_isDigit)
  | infinite negative =>
    rw [text, hx] at h
    cases negative with
    | true => exact hWord "-inf" (by decide) h
    | false => exact hWord "inf" (by decide) h
  | notANumber =>
    rw [text, hx] at h
    exact hWord "NaN" (by decide) h

/-- The text of a finite double is, with every separator, that of one and the same numeral, which
stands for the double up to half a unit of the fifth place. Read with a point it is the text of no
other numeral. -/
theorem exists_numeral_of_finite {x : Float} {v : ℚ} (hx : (Double.ofFloat x).value? = some v) :
    ∃ n : Numeral, (∀ separator, (text x separator).toList = n.text separator) ∧
      (∀ m : Numeral, (text x '.').toList = m.text '.' → m = n) ∧ |n.value - v| ≤ 5 / 10 ^ 6 := by
  cases hDouble : Double.ofFloat x with
  | infinite negative =>
    rw [hDouble] at hx
    cases hx
  | notANumber =>
    rw [hDouble] at hx
    cases hx
  | finite negative significand exponent =>
    rw [hDouble] at hx
    have hv := Option.some.inj hx
    have hText := toList_text_finite hDouble
    refine ⟨.ofUnits negative (units significand exponent), hText, ?_, ?_⟩
    · intro m hm
      exact Numeral.text_injective (by decide) (hm.symm.trans (hText '.'))
    · rw [Numeral.value_ofUnits, ← hv, mul_assoc, ← mul_sub, abs_mul]
      have hSign : |(if negative then -1 else 1 : ℚ)| = 1 := by
        cases negative <;> simp
      rw [hSign, one_mul]
      exact abs_units_sub_le significand exponent

/-- The double `-1 / 64` lies half way between two numbers with five places. -/
theorem exists_numeral_of_tie :
    (Double.ofFloat (.ofBits 0xbf90000000000000)).value? = some (-1 / 64) ∧
      text (.ofBits 0xbf90000000000000) ',' = "-0,01562" ∧
      ∃ n : Numeral, n.text ',' = "-0,01562".toList ∧ |n.value - -1 / 64| ≤ 5 / 10 ^ 6 := by
  have hValue : (Double.ofFloat (.ofBits 0xbf90000000000000)).value? = some (-1 / 64) := by
    decide +kernel
  have hText : text (.ofBits 0xbf90000000000000) ',' = "-0,01562" := by
    decide +kernel
  obtain ⟨n, hNumeral, -, hNear⟩ := exists_numeral_of_finite hValue
  exact ⟨hValue, hText, n, by rw [← hNumeral, hText], hNear⟩

/-! ## The text step by step

The text can also be had from one with all five places: take the zeros from its end, then the point
if nothing is left behind it, take the sign from a zero, and put the separator for the point.
-/

/-- All five places of a number of units. Even zero has its sign here. -/
def fixedDigits (negative : Bool) (units : Nat) : List Char :=
  (if negative then ['-'] else []) ++ Nat.toDigits 10 (units / 10 ^ 5) ++
    '.' :: paddedDigits 5 (units % 10 ^ 5)

/-- The text of a double with exactly five places. -/
def fixed (x : Float) : List Char :=
  match Double.ofFloat x with
  | .finite negative significand exponent => fixedDigits negative (units significand exponent)
  | .infinite false => "inf".toList
  | .infinite true => "-inf".toList
  | .notANumber => "NaN".toList

/-- A text with a point loses the zeros at its end, and then the point if it stands there. -/
def trimPlaces (t : List Char) : List Char :=
  if '.' ∈ t then (t.rdropWhile (· == '0')).rdropWhile (· == '.') else t

/-- Zero loses its sign, and the first point is replaced. -/
def withSeparator (separator : Char) (t : List Char) : List Char :=
  if t = ['-', '0'] then ['0'] else t.replace '.' separator

theorem rdropWhile_append_replicate (l : List Char) (k : Nat) (c : Char) :
    (l ++ List.replicate k c).rdropWhile (· == c) = l.rdropWhile (· == c) := by
  induction k with
  | zero => rw [List.replicate_zero, List.append_nil]
  | succ k ih =>
    rw [List.replicate_succ', ← List.append_assoc, List.rdropWhile_concat, if_pos (by simp), ih]

theorem rdropWhile_eq_self_of_getLast? {l : List Char} {c : Char} (h : l.getLast? ≠ some c) :
    l.rdropWhile (· == c) = l := by
  rw [List.rdropWhile_eq_self_iff]
  intro hNil hLast
  rw [List.getLast?_eq_some_getLast hNil, beq_iff_eq.mp hLast] at h
  exact h rfl

theorem point_not_mem {digits : List Char} (h : ∀ c ∈ digits, c.isDigit) : '.' ∉ digits := by
  intro hMem
  cases h '.' hMem

theorem point_not_mem_signed {digits : List Char} (negative : Bool)
    (h : ∀ c ∈ digits, c.isDigit) : '.' ∉ (if negative then ['-'] else []) ++ digits := by
  have hDigits := point_not_mem h
  cases negative <;> simp [hDigits]

theorem trimPlaces_append {front fraction : List Char} (hFront : '.' ∉ front)
    (hFraction : '.' ∉ fraction) (hZero : fraction.getLast? ≠ some '0') (k : Nat) :
    trimPlaces (front ++ '.' :: (fraction ++ List.replicate k '0')) =
      front ++ if fraction.isEmpty then [] else '.' :: fraction := by
  rw [trimPlaces, if_pos (by simp), ← List.cons_append, ← List.append_assoc,
    rdropWhile_append_replicate]
  cases fraction with
  | nil =>
    have hPoint : (front ++ ['.']).rdropWhile (· == '0') = front ++ ['.'] :=
      rdropWhile_eq_self_of_getLast? (by simp)
    have hLast : front.getLast? ≠ some '.' := fun h => hFront (List.mem_of_getLast? h)
    rw [hPoint, List.rdropWhile_concat, if_pos (by simp), rdropWhile_eq_self_of_getLast? hLast]
    exact (List.append_nil front).symm
  | cons c rest =>
    have hEnd : (front ++ '.' :: c :: rest).getLast? = (c :: rest).getLast? := by
      rw [List.getLast?_append_of_ne_nil _ (List.cons_ne_nil _ _), List.getLast?_cons_cons]
    have hZeros : (front ++ '.' :: c :: rest).rdropWhile (· == '0') = front ++ '.' :: c :: rest :=
      rdropWhile_eq_self_of_getLast? (hEnd ▸ hZero)
    have hLast : (c :: rest).getLast? ≠ some '.' := fun h => hFraction (List.mem_of_getLast? h)
    rw [hZeros, rdropWhile_eq_self_of_getLast? (hEnd ▸ hLast)]
    rfl

theorem trimPlaces_fixedDigits (negative : Bool) (units : Nat) :
    trimPlaces (fixedDigits negative units) =
      (if negative then ['-'] else []) ++ Nat.toDigits 10 (units / 10 ^ 5) ++
        if (fractionDigits units).isEmpty then [] else '.' :: fractionDigits units := by
  obtain ⟨k, hPlaces⟩ := exists_eq_trimZeros_append (paddedDigits 5 (units % 10 ^ 5))
  have hFront : '.' ∉ (if negative then ['-'] else []) ++ Nat.toDigits 10 (units / 10 ^ 5) :=
    point_not_mem_signed negative fun _ => isDigit_of_mem_toDigits
  have hFraction : '.' ∉ fractionDigits units :=
    point_not_mem fun _ => isDigit_of_mem_fractionDigits
  rw [fixedDigits, hPlaces]
  exact trimPlaces_append hFront hFraction (getLast?_trimZeros_ne _) k

namespace Numeral

/-- No numeral is written like a zero with a sign. -/
theorem text_ne_signedZero (n : Numeral) : n.text '.' ≠ ['-', '0'] := by
  intro hText
  have hNegative : n.negative = true := by
    rw [n.negative_eq_head?, hText]
    rfl
  have hParts : n.whole ++ n.places '.' = ['0'] := by
    rw [← dropWhile_text, hText]
    rfl
  have hWhole : n.whole = ['0'] := by
    rw [@whole_eq_takeWhile n '.' rfl, hParts]
    rfl
  have hFraction : n.fraction = [] := by
    rw [@fraction_eq_tail n '.' rfl, hParts]
    rfl
  exact n.ne_zero_of_negative hNegative ⟨hWhole, hFraction⟩

theorem withSeparator_text (n : Numeral) (separator : Char) :
    withSeparator separator (n.text '.') = n.text separator := by
  have hFront := point_not_mem_signed n.negative n.isDigit_of_mem_whole
  have hPlaces : (n.places '.').replace '.' separator = n.places separator := by
    unfold places
    split_ifs
    · rfl
    · exact List.replace_cons_self
  rw [withSeparator, if_neg n.text_ne_signedZero, text, List.replace_append_right hFront, hPlaces]
  rfl

end Numeral

/-- The sign is dropped in both ways for zero and for nothing else. -/
theorem withSeparator_fixedDigits (separator : Char) (negative : Bool) (units : Nat) :
    withSeparator separator (trimPlaces (fixedDigits negative units)) =
      (Numeral.ofUnits negative units).text separator := by
  rw [trimPlaces_fixedDigits]
  rcases Nat.eq_zero_or_pos units with rfl | hPos
  · cases negative with
    | true => rfl
    | false => exact Numeral.withSeparator_text (.ofUnits false 0) separator
  · have hSign : (Numeral.ofUnits negative units).negative = negative := by
      simp [Numeral.ofUnits, hPos.ne']
    rw [← Numeral.withSeparator_text, Numeral.text, hSign]
    rfl

theorem withSeparator_of_not_mem {t : List Char} (hPoint : '.' ∉ t) (hZero : t ≠ ['-', '0'])
    (separator : Char) : withSeparator separator (trimPlaces t) = t := by
  rw [trimPlaces, if_neg hPoint, withSeparator, if_neg hZero, List.replace_of_not_mem hPoint]

/-- The text of every double is what these steps make of its five places. -/
theorem toList_text_eq_withSeparator (x : Float) (separator : Char) :
    (text x separator).toList = withSeparator separator (trimPlaces (fixed x)) := by
  cases hx : Double.ofFloat x with
  | finite negative significand exponent =>
    rw [toList_text_finite hx, fixed, hx, withSeparator_fixedDigits]
  | infinite negative =>
    rw [text, fixed, hx]
    cases negative with
    | true => exact (@withSeparator_of_not_mem "-inf".toList (by decide) (by decide) _).symm
    | false => exact (@withSeparator_of_not_mem "inf".toList (by decide) (by decide) _).symm
  | notANumber =>
    rw [text, fixed, hx]
    exact (@withSeparator_of_not_mem "NaN".toList (by decide) (by decide) _).symm

end Places

end PatternAudit
