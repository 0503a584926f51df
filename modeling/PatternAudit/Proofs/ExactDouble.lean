import Mathlib.Algebra.Field.Rat
import Mathlib.Tactic.NormNum
import Mathlib.Tactic.Ring
import PatternAudit.Decimal.Double

/-!
# Doubles that are whole numbers

A double is a pattern of 64 bits, and arithmetic on doubles unpacks the patterns, computes, rounds
and packs again.

* `Double.ofBits_eq_ofUnpacked`: a double taken apart here is what arithmetic unpacks.
* `roundWithAccuracy_mul_pow`: a significand of 53 bits with zeros behind it is not changed by
  rounding, and `ofBits_pack` reads it back from the pattern it is packed into.
* `value?_toFloat`: a whole number below `2 ^ 53` becomes a double of exactly this value. The
  conversion of a natural number multiplies by a power of ten, here by one, so two roundings have to
  be exact.
-/

namespace PatternAudit

open Float.Model (Format UnpackedFloat totalExponent)
open Float.Model.UnpackedFloat

/-- The number that a finite double stands for. -/
def Double.value? : Double → Option ℚ
  | .finite negative significand exponent =>
    some ((if negative then -1 else 1) * significand * 2 ^ exponent)
  | .infinite _ => none
  | .notANumber => none

/-! ## Unpacking -/

def isNegative : Sign → Bool
  | .negative => true
  | .positive => false

def Double.ofUnpacked : UnpackedFloat → Double
  | .finite sign mantissa exponent _ => .finite (isNegative sign) mantissa exponent
  | .zero sign => .finite (isNegative sign) 0 (-1074)
  | .infinity sign => .infinite (isNegative sign)
  | .notANumber => .notANumber

theorem isNegative_ofBitVec (v : BitVec 1) : isNegative (.ofBitVec v) = (v.toNat == 1) := by
  revert v
  decide

theorem toNat_one_append (v : BitVec 52) : (1#1 ++ v).toNat = 2 ^ 52 + v.toNat := by
  rw [BitVec.toNat_append, ← Nat.shiftLeft_add_eq_or_of_lt v.isLt]
  rfl

theorem Double.ofUnpacked_unpack (b : BitVec 64) :
    ofUnpacked (unpack .binary64 b) =
      if @unpackExponent .binary64 b = -1#11 then
        if @unpackMantissa .binary64 b = 0#52 then
          .infinite (isNegative (.ofBitVec (@unpackSign .binary64 b)))
        else .notANumber
      else if @unpackExponent .binary64 b = 0#11 then
        if @unpackMantissa .binary64 b = 0#52 then
          .finite (isNegative (.ofBitVec (@unpackSign .binary64 b))) 0 (-1074)
        else
          .finite (isNegative (.ofBitVec (@unpackSign .binary64 b)))
            (@unpackMantissa .binary64 b).toNat
            ((@unpackExponent .binary64 b).toNat - (Format.exponentBias .binary64 + 52) + 1)
      else
        .finite (isNegative (.ofBitVec (@unpackSign .binary64 b)))
          (1#1 ++ @unpackMantissa .binary64 b).toNat
          ((@unpackExponent .binary64 b).toNat - (Format.exponentBias .binary64 + 52)) := by
  unfold UnpackedFloat.unpack
  dsimp only
  rw [apply_ite ofUnpacked, apply_ite ofUnpacked, apply_ite ofUnpacked, apply_dite ofUnpacked]
  rfl

theorem Double.ofBits_eq_ofUnpacked (bits : UInt64) :
    ofBits bits = ofUnpacked (unpack .binary64 bits.toBitVec) := by
  have hMantissa : (@unpackMantissa .binary64 bits.toBitVec).toNat = bits.toNat % 2 ^ 52 := by
    simp [unpackMantissa]
  have hExponent : (@unpackExponent .binary64 bits.toBitVec).toNat =
      bits.toNat / 2 ^ 52 % 2 ^ 11 := by
    simp [unpackExponent, Nat.shiftRight_eq_div_pow]
  have hSign : isNegative (.ofBitVec (@unpackSign .binary64 bits.toBitVec)) =
      (bits.toNat / 2 ^ 63 % 2 == 1) := by
    rw [isNegative_ofBitVec]
    change ((bits.toBitVec.extractLsb 63 63).toNat == 1) = _
    rw [BitVec.extractLsb_toNat, Nat.shiftRight_eq_div_pow]
    rfl
  have hBias : (Format.exponentBias .binary64 : Int) = 1023 := by decide
  have hOnes : (-1#11).toNat = 2 ^ 11 - 1 := by decide
  have hZeros (w : Nat) : (0#w).toNat = 0 := rfl
  rw [ofUnpacked_unpack]
  unfold ofBits
  simp only [← BitVec.toNat_inj, hMantissa, hExponent, hSign, hBias, hOnes, hZeros, Nat.pow_eq,
    toNat_one_append]
  split_ifs with hInfinite hNone hSmall hZero
  · rfl
  · rfl
  · rw [hZero]
  · rw [hSmall]
    rfl
  · rfl

theorem eq_finite_of_ofUnpacked {u : UnpackedFloat} {m : Nat} {e : Int} (hm : 0 < m)
    (h : Double.ofUnpacked u = .finite false m e) : u = .finite .positive m e hm := by
  cases u with
  | finite sign mantissa exponent hPos =>
    cases sign with
    | positive =>
      cases h
      rfl
    | negative => cases h
  | zero sign =>
    have hZero : 0 = m := (Double.finite.inj h).2.1
    exact absurd hZero hm.ne
  | infinity sign => cases h
  | notANumber => cases h

/-! ## Significands of full length -/

/-- A significand of 53 bits. -/
structure FullLength (m : Nat) : Prop where
  least : 2 ^ 52 ≤ m
  lt : m < 2 ^ 53

namespace FullLength

variable {m : Nat}

theorem pos (h : FullLength m) : 0 < m :=
  Nat.lt_of_lt_of_le (by decide) h.least

theorem log2_mul_pow (h : FullLength m) (j : Nat) : (m * 2 ^ j).log2 = 52 + j := by
  have hPos : 0 < 2 ^ j := Nat.two_pow_pos j
  have hLeast := Nat.mul_le_mul_right (2 ^ j) h.least
  have hLt := Nat.mul_lt_mul_of_pos_right h.lt hPos
  rw [← Nat.pow_add] at hLeast hLt
  rw [Nat.log2_eq_iff (Nat.mul_ne_zero h.pos.ne' hPos.ne')]
  refine ⟨hLeast, ?_⟩
  rwa [show 52 + j + 1 = 53 + j by omega]

theorem log2 (h : FullLength m) : m.log2 = 52 := by
  have hLog := h.log2_mul_pow 0
  simpa using hLog

end FullLength

/-! ## Rounding what needs no rounding -/

theorem shiftRight_mul_pow (m j : Nat) :
    ExtendedMantissa.mk (m * 2 ^ j) false false >>> j = ⟨m, false, false⟩ := by
  induction j generalizing m with
  | zero => simp [HShiftRight.hShiftRight, Nat.repeat]
  | succ j ih =>
    have hStep := ih (2 * m)
    change Nat.repeat ExtendedMantissa.shiftRightOne j _ = _ at hStep
    change ExtendedMantissa.shiftRightOne (Nat.repeat ExtendedMantissa.shiftRightOne j _) = _
    rw [show m * 2 ^ (j + 1) = 2 * m * 2 ^ j by ring, hStep]
    simp [ExtendedMantissa.shiftRightOne]

theorem targetExponent_binary64 (m : Nat) (e : Int) :
    Format.binary64.targetExponent (totalExponent m e) = max (m.log2 + e - 52) (-1074) := by
  have hMin : Format.binary64.minExponent = -1074 := by decide
  have hBits : Format.binary64.mantissaBits = 53 := by decide
  rw [Format.targetExponent, totalExponent, hMin, hBits]
  omega

theorem toNat_packComponents (sign : Sign) (exponent : BitVec 11) (mantissa : BitVec 52) :
    (packComponents .binary64 sign exponent mantissa).toNat =
      sign.toBitVec.toNat * 2 ^ 63 + exponent.toNat * 2 ^ 52 + mantissa.toNat := by
  unfold packComponents
  rw [BitVec.toNat_append, BitVec.toNat_append, ← Nat.shiftLeft_add_eq_or_of_lt exponent.isLt,
    ← Nat.shiftLeft_add_eq_or_of_lt mantissa.isLt, Nat.shiftLeft_eq, Nat.shiftLeft_eq]
  ring

section

variable {m : Nat} (hm : FullLength m) {e : Int} (hLeast : -1074 ≤ e)

include hm hLeast

theorem shiftToTargetExponent_mul_pow (j : Nat) :
    shiftToTargetExponent .binary64 (m * 2 ^ j) (e - j) .exact = (⟨m, false, false⟩, e) := by
  have hTarget : Format.binary64.targetExponent (totalExponent (m * 2 ^ j) (e - j)) = e := by
    rw [targetExponent_binary64, hm.log2_mul_pow]
    omega
  have hShift : (e - (e - j)).toNat = j := by omega
  have hExact : ExtendedMantissa.ofMantissaAndAccuracy (m * 2 ^ j) .exact =
      ⟨m * 2 ^ j, false, false⟩ := rfl
  rw [shiftToTargetExponent, hTarget, shiftToExponent, hShift, hExact, shiftRight_mul_pow]
  simp

theorem roundWithAccuracy_mul_pow (sign : Sign) (j : Nat) :
    roundWithAccuracy .binary64 sign (m * 2 ^ j) (e - j) .exact = .finite sign m e hm.pos := by
  have hFirst := shiftToTargetExponent_mul_pow hm hLeast j
  have hSecond := shiftToTargetExponent_mul_pow hm hLeast 0
  simp only [Nat.pow_zero, Nat.mul_one, Int.natCast_zero, Int.sub_zero] at hSecond
  have hRounded : (ExtendedMantissa.mk m false false).roundedMantissa = m := rfl
  unfold roundWithAccuracy
  rw [hFirst]
  dsimp only
  rw [hRounded, hSecond, dif_neg hm.pos.ne']

/-! ## Packing and unpacking -/

theorem toNat_pack (hGreatest : e ≤ 971) :
    (Float.Model.pack (.finite .positive m e hm.pos)).toBits.toNat =
      (e + 1075).toNat * 2 ^ 52 + (m - 2 ^ 52) := by
  have hBias : (e + (Format.binary64.exponentBias : Int) + (52 : Nat)).toNat =
      (e + 1075).toNat := by
    have hValue : (Format.binary64.exponentBias : Int) = 1023 := by decide
    omega
  have hLength : m.log2 + 1 = Format.binary64.mantissaBits := by
    rw [hm.log2]
    rfl
  have hSign : Sign.positive.toBitVec.toNat = 0 := rfl
  have hLow := hm.least
  have hHigh := hm.lt
  change (UnpackedFloat.pack .binary64 (.finite .positive m e hm.pos)).toNat = _
  unfold UnpackedFloat.pack
  simp only [hBias]
  rw [if_neg (by omega), if_pos hLength, toNat_packComponents, BitVec.toNat_ofNat,
    BitVec.toNat_ofNat, hSign]
  omega

theorem ofBits_pack (hGreatest : e ≤ 971) :
    Double.ofBits (Float.Model.pack (.finite .positive m e hm.pos)).toBits =
      .finite false m e := by
  have hBits := toNat_pack hm hLeast hGreatest
  have hLow := hm.least
  have hHigh := hm.lt
  generalize (Float.Model.pack (.finite .positive m e hm.pos)).toBits = bits at hBits
  have hSign : bits.toNat / 2 ^ 63 % 2 = 0 := by omega
  have hExponent : bits.toNat / 2 ^ 52 % 2 ^ 11 = (e + 1075).toNat := by omega
  have hFraction : bits.toNat % 2 ^ 52 = m - 2 ^ 52 := by omega
  unfold Double.ofBits
  simp only [Nat.pow_eq, hSign, hExponent, hFraction]
  rw [if_neg (by omega), if_neg (by omega), Nat.add_sub_cancel' hLow,
    show ((e + 1075).toNat : Int) - 1075 = e by omega]
  rfl

theorem unpack_pack (hGreatest : e ≤ 971) :
    (Float.Model.pack (.finite .positive m e hm.pos)).unpack = .finite .positive m e hm.pos := by
  have hBits := ofBits_pack hm hLeast hGreatest
  rw [Double.ofBits_eq_ofUnpacked] at hBits
  exact eq_finite_of_ofUnpacked hm.pos hBits

end

/-! ## Whole numbers -/

section

variable {n : Nat} (hPos : 0 < n) (hLt : n < 2 ^ 53)

include hPos hLt

/-- Zeros behind a number make it a significand of full length. -/
theorem fullLength_mul_pow : FullLength (n * 2 ^ (52 - n.log2)) := by
  have hLeast : 2 ^ n.log2 ≤ n := Nat.log2_self_le hPos.ne'
  have hLog : n < 2 ^ (n.log2 + 1) := Nat.lt_log2_self
  have hBound : n.log2 < 53 := (Nat.log2_lt hPos.ne').mpr hLt
  have hZeros : 0 < 2 ^ (52 - n.log2) := Nat.two_pow_pos _
  refine ⟨?_, ?_⟩
  · calc 2 ^ 52 = 2 ^ n.log2 * 2 ^ (52 - n.log2) := by
          rw [← Nat.pow_add]
          congr 1
          omega
      _ ≤ n * 2 ^ (52 - n.log2) := Nat.mul_le_mul_right _ hLeast
  · calc n * 2 ^ (52 - n.log2) < 2 ^ (n.log2 + 1) * 2 ^ (52 - n.log2) :=
          Nat.mul_lt_mul_of_pos_right hLog hZeros
      _ = 2 ^ 53 := by
          rw [← Nat.pow_add]
          congr 1
          omega

theorem ofNat_eq_finite :
    UnpackedFloat.ofNat .binary64 n =
      .finite .positive (n * 2 ^ (52 - n.log2)) (-(52 - n.log2 : Nat))
        (fullLength_mul_pow hPos hLt).pos := by
  have hBound : n.log2 < 53 := (Nat.log2_lt hPos.ne').mpr hLt
  have hSign : compare (n : Int) 0 = .gt := by
    rw [compare_gt_iff_gt]
    exact Int.natCast_pos.mpr hPos
  have hShift : (-Format.binary64.targetExponent (totalExponent n 0)).toNat = 52 - n.log2 := by
    rw [targetExponent_binary64]
    omega
  have hOfNat : UnpackedFloat.ofNat .binary64 n =
      roundWithAccuracy .binary64 .positive (n * 2 ^ (52 - n.log2)) (-(52 - n.log2 : Nat))
        .exact := by
    rw [UnpackedFloat.ofNat, ofInt, UnpackedFloat.normalize, hSign]
    simp only [UnpackedFloat.round, decreaseExponent, Int.toNat_natCast, hShift,
      Nat.shiftLeft_eq, Int.zero_sub]
  have hRound := roundWithAccuracy_mul_pow (fullLength_mul_pow hPos hLt)
    (e := -(52 - n.log2 : Nat)) (by omega) .positive 0
  rw [Nat.pow_zero, Nat.mul_one, Int.natCast_zero, Int.sub_zero] at hRound
  exact hOfNat.trans hRound

end

/-- Rounding a whole number, and once more after multiplying it by one, keeps its value. -/
theorem toFloat_eq_pack {n : Nat} (hPos : 0 < n) (hLt : n < 2 ^ 53) :
    n.toFloat = .ofModel (.pack (.finite .positive (n * 2 ^ (52 - n.log2)) (-(52 - n.log2 : Nat))
      (fullLength_mul_pow hPos hLt).pos)) := by
  have hFull := fullLength_mul_pow hPos hLt
  have hWord : n.toUInt64.toNat = n := by
    rw [Nat.toUInt64, UInt64.toNat_ofNat']
    omega
  have hFirst : n.toUInt64.toFloat.toModel.unpack = .finite .positive (n * 2 ^ (52 - n.log2))
      (-(52 - n.log2 : Nat)) hFull.pos := by
    change (Float.Model.pack (UnpackedFloat.ofNat .binary64 n.toUInt64.toNat)).unpack = _
    rw [hWord, ofNat_eq_finite hPos hLt]
    exact unpack_pack hFull (by omega) (by omega)
  have hOne : (Float.ofBits 4607182418800017408).toModel.unpack =
      .finite .positive (2 ^ 52) (-52) (by decide) := rfl
  have hRound := roundWithAccuracy_mul_pow hFull (e := -(52 - n.log2 : Nat)) (by omega)
    .positive 52
  have hTen : n.toFloat = n.toUInt64.toFloat * Float.ofBits 4607182418800017408 := by
    change Float.ofScientific n false 0 = _
    rw [Float.ofScientific, dif_pos ⟨hLt, by decide⟩]
    rfl
  rw [hTen]
  change Float.ofModel (.pack (UnpackedFloat.mul .binary64 _ _)) = _
  rw [hFirst, hOne]
  exact congrArg (fun u => Float.ofModel (.pack u)) hRound

theorem value?_toFloat {n : Nat} (hLt : n < 2 ^ 53) :
    (Double.ofFloat n.toFloat).value? = some n := by
  rcases Nat.eq_zero_or_pos n with rfl | hPos
  · have hZero : Double.ofFloat (Nat.toFloat 0) = .finite false 0 (-1074) := by
      decide +kernel
    rw [hZero]
    simp [Double.value?]
  · have hBits := ofBits_pack (fullLength_mul_pow hPos hLt) (e := -(52 - n.log2 : Nat))
      (by omega) (by omega)
    rw [toFloat_eq_pack hPos hLt, Double.ofFloat]
    change (Double.ofBits (Float.Model.pack _).toBits).value? = _
    rw [hBits]
    simp [Double.value?]

end PatternAudit
