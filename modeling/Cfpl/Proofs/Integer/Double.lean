import Cfpl.Integer
import Mathlib.Algebra.Group.Nat.Defs

/-! Integers of the 32-bit range as doubles. The exponents that come up on the way stay far below the one
at which a double is infinite, so every such integer has a double. -/

namespace Cfpl.Integer

open Float.Model Float.Model.UnpackedFloat

def Within (size : Nat) (bound : Int) : UnpackedFloat → Prop
  | .zero _ => True
  | .finite _ mantissa exponent _ => mantissa < 2 ^ size ∧ exponent ≤ bound
  | .infinity _ | .notANumber => False

private theorem Within.not_isInf {size : Nat} {bound : Int} {x : UnpackedFloat} (within : Within size bound x) :
    x.isInf = false := by
  cases x with
  | infinity => exact within.elim
  | _ => rfl

theorem Within.mono {size wider : Nat} {bound higher : Int} {x : UnpackedFloat}
    (within : Within size bound x) (longer : size ≤ wider) (above : bound ≤ higher) :
    Within wider higher x := by
  cases x with
  | finite =>
    exact ⟨Nat.lt_of_lt_of_le within.1 (Nat.pow_le_pow_right (by decide) longer),
      Int.le_trans within.2 above⟩
  | _ => exact within

private theorem log2_lt_of_lt {mantissa size : Nat} (positive : 0 < size) (less : mantissa < 2 ^ size) :
    mantissa.log2 < size := by
  by_cases zero : mantissa = 0
  · subst zero
    simpa using positive
  · exact (Nat.log2_lt zero).mpr less

private theorem shift_exponent {size mantissa : Nat} {exponent bound : Int} (accuracy : Accuracy)
    (positive : 0 < size) (less : mantissa < 2 ^ size) (below : exponent ≤ bound) (low : -1074 ≤ bound) :
    (shiftToTargetExponent .binary64 mantissa exponent accuracy).2 ≤ bound + size := by
  have digits := log2_lt_of_lt positive less
  have target : Format.binary64.targetExponent (totalExponent mantissa exponent) =
      max (mantissa.log2 + 1 + exponent - 53) (-1074) := rfl
  unfold shiftToTargetExponent shiftToExponent
  simp only [target]
  omega

private theorem shiftRight_le (count : Nat) (extended : ExtendedMantissa) :
    (extended >>> count).mantissa ≤ extended.mantissa := by
  change (count.repeat ExtendedMantissa.shiftRightOne extended).mantissa ≤ _
  induction count with
  | zero => exact Nat.le_refl _
  | succ count ih => exact Nat.le_trans (Nat.div_le_self _ _) ih

private theorem shift_mantissa (mantissa : Nat) (exponent : Int) (accuracy : Accuracy) :
    (shiftToTargetExponent .binary64 mantissa exponent accuracy).1.mantissa ≤ mantissa := by
  apply Nat.le_trans (shiftRight_le _ _)
  unfold ExtendedMantissa.ofMantissaAndAccuracy
  split <;> exact Nat.le_refl _

private theorem rounded_le (extended : ExtendedMantissa) : extended.roundedMantissa ≤ extended.mantissa + 1 := by
  unfold ExtendedMantissa.roundedMantissa Accuracy.roundToNearestEven
  split <;> omega

private theorem within_round {size mantissa : Nat} {exponent bound : Int} (sign : Sign) (accuracy : Accuracy)
    (positive : 0 < size) (less : mantissa < 2 ^ size) (below : exponent ≤ bound) (low : -1074 ≤ bound) :
    Within (size + 1) (bound + size + (size + 1))
      (roundWithAccuracy .binary64 sign mantissa exponent accuracy) := by
  have first := shift_exponent accuracy positive less below low
  have kept := shift_mantissa mantissa exponent accuracy
  unfold roundWithAccuracy
  generalize shiftToTargetExponent .binary64 mantissa exponent accuracy = shifted at first kept
  have rounded := rounded_le shifted.1
  have longer : shifted.1.roundedMantissa < 2 ^ (size + 1) := by
    rw [Nat.pow_succ]
    omega
  -- The mantissa may have grown by a digit, so it is shifted once more.
  have second := shift_exponent .exact (Nat.succ_pos size) longer first (by omega)
  have keptAgain := shift_mantissa shifted.1.roundedMantissa shifted.2 .exact
  dsimp only
  by_cases zero : (shiftToTargetExponent .binary64 shifted.1.roundedMantissa shifted.2 .exact).1.mantissa = 0
  · rw [dif_pos zero]
    trivial
  · rw [dif_neg zero]
    exact ⟨by omega, by simpa using second⟩

private theorem within_parts {bound : Int} (bits : BitVec Format.binary64.numBits)
    (apart : unpackExponent bits ≠ -1#_) (low : -1074 ≤ bound)
    (below : ((unpackExponent bits).toNat : Int) ≤ bound + 1075) : Within 53 bound (unpack .binary64 bits) := by
  have bias : ((Format.binary64.exponentBias : Int) + Format.binary64.mantissaBitsWithoutImplicit) = 1075 :=
    rfl
  have short : (unpackMantissa bits).toNat < 2 ^ 53 := Nat.lt_trans (unpackMantissa bits).isLt (by decide)
  unfold UnpackedFloat.unpack
  dsimp only
  rw [if_neg apart]
  by_cases zero : unpackExponent bits = 0#_
  · rw [if_pos zero]
    by_cases none : unpackMantissa bits = 0#_
    · rw [dif_pos none]
      trivial
    · rw [dif_neg none]
      refine ⟨short, ?_⟩
      rw [bias, zero]
      exact low
  · rw [if_neg zero]
    refine ⟨(1#1 ++ unpackMantissa bits).isLt, ?_⟩
    rw [bias]
    omega

private theorem within_components {bound : Int} (sign : Sign) (exponent : BitVec 11) (mantissa : BitVec 52)
    (apart : exponent ≠ -1#11) (low : -1074 ≤ bound) (below : (exponent.toNat : Int) ≤ bound + 1075) :
    Within 53 bound (unpack .binary64 (packComponents .binary64 sign exponent mantissa)) := by
  refine within_parts _ ?_ low ?_
  · rw [unpackExponent_packComponents]
    exact apart
  · rw [unpackExponent_packComponents]
    exact below

private theorem within_unpack {size : Nat} {bound : Int} {x : UnpackedFloat} (within : Within size bound x)
    (low : -1074 ≤ bound) (high : bound ≤ 971) :
    Within 53 bound (unpack .binary64 (pack .binary64 x)) := by
  cases x with
  | infinity | notANumber => exact within.elim
  | zero sign => exact within_components sign 0 0 (by decide) low (by simp; omega)
  | finite sign mantissa exponent positive =>
    obtain ⟨_, below⟩ := within
    have biased : (exponent + Format.binary64.exponentBias +
        Format.binary64.mantissaBitsWithoutImplicit).toNat = (exponent + 1075).toNat := by
      rw [Int.add_assoc]
      rfl
    unfold UnpackedFloat.pack
    dsimp only
    rw [biased]
    rw [if_neg (by change ¬2048 ≤ _; omega)]
    split
    · have small : (exponent + 1075).toNat < 2047 := by omega
      have kept : (BitVec.ofNat 11 (exponent + 1075).toNat).toNat = (exponent + 1075).toNat := by
        rw [BitVec.toNat_ofNat]
        exact Nat.mod_eq_of_lt (by omega)
      refine within_components sign _ _ (fun same => ?_) low (by rw [kept]; omega)
      have known := congrArg BitVec.toNat same
      rw [kept] at known
      exact absurd known (Nat.ne_of_lt small)
    · exact within_components sign 0 _ (by decide) low (by simp; omega)

def Moderate (bound : Int) (x : Float) : Prop := Within 53 bound x.toModel.unpack

private theorem within_ofNat {n : Nat} (small : n < 2 ^ 53) :
    Within 107 300 (UnpackedFloat.ofNat .binary64 n) := by
  unfold UnpackedFloat.ofNat UnpackedFloat.ofInt UnpackedFloat.normalize
  by_cases zero : n = 0
  · subst zero
    trivial
  · have greater : compare (n : Int) 0 = .gt := by
      simp only [compare, compareOfLessAndEq]
      rw [if_neg (by omega), if_neg (by omega)]
    have digits : n.log2 < 53 := log2_lt_of_lt (by decide) small
    have target : Format.binary64.targetExponent (totalExponent n 0) =
        max ((n.log2 : Int) + 1 + 0 - 53) (-1074) := rfl
    rw [greater]
    unfold UnpackedFloat.round UnpackedFloat.decreaseExponent
    simp only [Int.toNat_natCast, target]
    generalize shift : (0 - max ((n.log2 : Int) + 1 + 0 - 53) (-1074)).toNat = count
    have shifted : n <<< count < 2 ^ 106 := by
      rw [Nat.shiftLeft_eq, show 2 ^ 106 = 2 ^ 53 * 2 ^ 53 by decide]
      exact Nat.mul_lt_mul_of_lt_of_le small (Nat.pow_le_pow_right (by decide) (by omega)) (by decide)
    have rounded := within_round .positive .exact (by decide) shifted
      (show 0 - (count : Int) ≤ 0 by omega) (by decide)
    exact rounded.mono (by decide) (by decide)

private theorem moderate_ofUInt64 {n : UInt64} (small : n.toNat < 2 ^ 53) : Moderate 300 n.toFloat :=
  within_unpack (within_ofNat small) (by decide) (by decide)

private theorem moderate_mul_one {x : Float} (moderate : Moderate 300 x) :
    Moderate 700 (x * Float.ofBits 0x3FF0000000000000) := by
  have one : (Float.ofBits 0x3FF0000000000000).toModel.unpack =
      .finite .positive (2 ^ 52) (-52) (by decide) := rfl
  change Within 53 700 (UnpackedFloat.unpack .binary64 (UnpackedFloat.pack .binary64
    (UnpackedFloat.mul .binary64 x.toModel.unpack (Float.ofBits 0x3FF0000000000000).toModel.unpack)))
  suffices within : Within 107 700 (UnpackedFloat.mul .binary64 x.toModel.unpack
      (Float.ofBits 0x3FF0000000000000).toModel.unpack) from
    within_unpack within (by decide) (by decide)
  rw [one]
  unfold Moderate at moderate
  generalize x.toModel.unpack = factor at moderate
  cases factor with
  | infinity | notANumber => exact moderate.elim
  | zero => trivial
  | finite sign mantissa exponent positive =>
    obtain ⟨short, below⟩ := moderate
    have product : mantissa * 2 ^ 52 < 2 ^ 106 := by omega
    have rounded := within_round (sign * .positive) .exact (by decide) product
      (show exponent + -52 ≤ 300 by omega) (by decide)
    exact rounded.mono (by decide) (by decide)

private theorem moderate_neg {x : Float} (moderate : Moderate 700 x) : Moderate 700 x.neg := by
  change Within 53 700 (UnpackedFloat.unpack .binary64 (UnpackedFloat.pack .binary64
    x.toModel.unpack.neg))
  suffices within : Within 53 700 x.toModel.unpack.neg from within_unpack within (by decide) (by decide)
  unfold Moderate at moderate
  generalize x.toModel.unpack = operand at moderate
  cases operand with
  | infinity | notANumber => exact moderate.elim
  | zero => trivial
  | finite => exact moderate

private theorem moderate_ofNat {n : Nat} (small : n < 2 ^ 53) : Moderate 700 (Float.ofNat n) := by
  change Moderate 700 (Float.ofScientific n false 0)
  unfold Float.ofScientific
  rw [dif_pos ⟨small, by decide⟩]
  have kept : n.toUInt64.toNat = n := by
    rw [Nat.toUInt64_eq, UInt64.toNat_ofNat']
    exact Nat.mod_eq_of_lt (by omega)
  exact moderate_mul_one (moderate_ofUInt64 (by rw [kept]; exact small))

theorem isSome_toFloat? {n : Int} (within : InRange n) : (toFloat? n).isSome := by
  have moderate : Moderate 700 (Float.ofInt n) := by
    obtain ⟨low, high⟩ := within
    cases n with
    | ofNat m => exact moderate_ofNat (by change (m : Int) ≤ _ at high; omega)
    | negSucc m => exact moderate_neg (moderate_ofNat (by omega))
  have finite : (Float.ofInt n).isInf = false := moderate.not_isInf
  unfold toFloat?
  dsimp only
  rw [finite]
  rfl

end Cfpl.Integer
