import Cfpl.Proofs.Decimal.Normal

/-! Rounding keeps a number that a double holds. So a numeral of such a number is read as this double, whichever
way it is computed. -/

namespace Cfpl.Decimal

open Float.Model Float.Model.UnpackedFloat

/-- The mantissa and the exponent that a finite double other than zero is kept with. -/
structure Fits (mantissa : Nat) (exponent : Int) : Prop where
  positive : 0 < mantissa
  short : mantissa < 2 ^ 53
  low : -1074 ≤ exponent
  high : exponent ≤ 971
  full : 2 ^ 52 ≤ mantissa ∨ exponent = -1074

variable {mantissa first second count : Nat} {exponent firstPower secondPower : Int}

section Round

private theorem log2_shifted (some_ : mantissa ≠ 0) (count : Nat) :
    (mantissa * 2 ^ count).log2 = mantissa.log2 + count := by
  induction count with
  | zero => rw [Nat.pow_zero, Nat.mul_one, Nat.add_zero]
  | succ count ih =>
    have shifted : mantissa * 2 ^ count ≠ 0 := Nat.mul_ne_zero some_ (Nat.two_pow_pos count).ne'
    rw [Nat.pow_succ', Nat.mul_left_comm, Nat.log2_two_mul shifted, ih]
    rfl

private theorem target_of_fits (fits : Fits mantissa exponent) (count : Nat) :
    Format.binary64.targetExponent (totalExponent (mantissa * 2 ^ count) (exponent - count)) = exponent := by
  have some_ := fits.positive.ne'
  have target : Format.binary64.targetExponent (totalExponent (mantissa * 2 ^ count) (exponent - count)) =
      max ((mantissa * 2 ^ count).log2 + 1 + (exponent - count) - 53) (-1074) := rfl
  have below : mantissa.log2 < 53 := (Nat.log2_lt some_).mpr fits.short
  have low := fits.low
  rw [target, log2_shifted some_]
  rcases fits.full with full | least
  · have above : 52 ≤ mantissa.log2 := (Nat.le_log2 some_).mpr full
    omega
  · omega

private theorem shiftRight_exact (mantissa count : Nat) :
    (⟨mantissa * 2 ^ count, false, false⟩ : ExtendedMantissa) >>> count = ⟨mantissa, false, false⟩ := by
  change count.repeat ExtendedMantissa.shiftRightOne _ = _
  induction count generalizing mantissa with
  | zero => rw [Nat.pow_zero, Nat.mul_one]; rfl
  | succ count ih =>
    rw [Nat.pow_succ', ← Nat.mul_assoc, Nat.repeat, ih]
    simp [ExtendedMantissa.shiftRightOne]

private theorem shift_of_fits (fits : Fits mantissa exponent) (count : Nat) :
    shiftToTargetExponent .binary64 (mantissa * 2 ^ count) (exponent - count) .exact =
      (⟨mantissa, false, false⟩, exponent) := by
  unfold shiftToTargetExponent shiftToExponent
  rw [target_of_fits fits]
  have amount : (exponent - (exponent - count)).toNat = count := by omega
  simp only [amount]
  exact Prod.ext (shiftRight_exact mantissa count) (by simp)

private theorem round_of_fits (fits : Fits mantissa exponent) (sign : Sign) (count : Nat) :
    roundWithAccuracy .binary64 sign (mantissa * 2 ^ count) (exponent - count) .exact =
      .finite sign mantissa exponent fits.positive := by
  have again := shift_of_fits fits 0
  rw [Nat.pow_zero, Nat.mul_one, Int.natCast_zero, Int.sub_zero] at again
  unfold roundWithAccuracy
  simp only [shift_of_fits fits, ExtendedMantissa.roundedMantissa, ExtendedMantissa.accuracy,
    Accuracy.roundToNearestEven, again]
  rw [dif_neg fits.positive.ne']

end Round

section Exact

def binary (mantissa : Nat) (exponent : Int) : ℚ := mantissa * 2 ^ exponent

private theorem eq_shifted (same : binary first firstPower = binary mantissa exponent)
    (below : firstPower ≤ exponent) :
    ∃ count : Nat, first = mantissa * 2 ^ count ∧ firstPower = exponent - count := by
  obtain ⟨count, rfl⟩ := Int.le.dest below
  refine ⟨count, ?_, by omega⟩
  unfold binary at same
  rw [zpow_add₀ (by decide), mul_left_comm, mul_comm, mul_right_inj' (zpow_ne_zero _ (by decide)),
    zpow_natCast] at same
  exact_mod_cast same

private theorem round_binary (fits : Fits mantissa exponent) (sign : Sign)
    (same : binary first firstPower = binary mantissa exponent) (below : firstPower ≤ exponent) :
    roundWithAccuracy .binary64 sign first firstPower .exact = .finite sign mantissa exponent fits.positive := by
  obtain ⟨count, rfl, rfl⟩ := eq_shifted same below
  exact round_of_fits fits sign count

private theorem binary_mul (first second : Nat) (firstPower secondPower : Int) :
    binary first firstPower * binary second secondPower = binary (first * second) (firstPower + secondPower) := by
  unfold binary
  rw [zpow_add₀ (by decide), Nat.cast_mul]
  ring

theorem binary_shift (mantissa count : Nat) (exponent : Int) :
    binary (mantissa * 2 ^ count) exponent = binary mantissa (exponent + count) := by
  unfold binary
  rw [zpow_add₀ (by decide), zpow_natCast]
  push_cast
  ring

private theorem binary_lt {size : Nat} (short : mantissa < 2 ^ size) (exponent : Int) :
    binary mantissa exponent < 2 ^ (size + exponent) := by
  unfold binary
  rw [zpow_add₀ (by decide), zpow_natCast]
  exact mul_lt_mul_of_pos_right (by exact_mod_cast short) (zpow_pos (by decide) _)

private theorem le_binary {size : Nat} (long : 2 ^ size ≤ mantissa) (exponent : Int) :
    2 ^ (size + exponent) ≤ binary mantissa exponent := by
  unfold binary
  rw [zpow_add₀ (by decide), zpow_natCast]
  exact mul_le_mul_of_nonneg_right (by exact_mod_cast long) (zpow_nonneg (by decide) _)

private theorem mul_binary (fits : Fits mantissa exponent) (long : 2 ^ 53 ≤ first * second)
    (someFirst : 0 < first) (someSecond : 0 < second)
    (same : binary first firstPower * binary second secondPower = binary mantissa exponent) :
    UnpackedFloat.mul .binary64 (.finite .positive first firstPower someFirst)
      (.finite .positive second secondPower someSecond) =
        .finite .positive mantissa exponent fits.positive := by
  rw [binary_mul] at same
  refine round_binary fits (.positive * .positive) same (Int.not_lt.mp fun above => ?_)
  obtain ⟨count, grown, _⟩ := eq_shifted same.symm (Int.le_of_lt above)
  have short := fits.short
  have more := Nat.le_mul_of_pos_right (first * second) (Nat.two_pow_pos count)
  omega

private theorem target_le (fits : Fits mantissa exponent) (someFirst : 0 < first)
    (same : binary first firstPower = binary mantissa exponent * binary second secondPower) :
    Format.binary64.targetExponent (totalExponent first firstPower - totalExponent second secondPower) ≤
      exponent := by
  have target : Format.binary64.targetExponent
      (totalExponent first firstPower - totalExponent second secondPower) =
      max (first.log2 + 1 + firstPower - (second.log2 + 1 + secondPower) - 53) (-1074) := rfl
  have below : (2 : ℚ) ^ (first.log2 + firstPower) <
      2 ^ ((53 + exponent) + (↑(second.log2 + 1) + secondPower)) := by
    calc (2 : ℚ) ^ (first.log2 + firstPower)
        ≤ binary first firstPower := le_binary (Nat.log2_self_le someFirst.ne') firstPower
      _ = binary mantissa exponent * binary second secondPower := same
      _ < 2 ^ (53 + exponent) * 2 ^ (↑(second.log2 + 1) + secondPower) := by
        refine mul_lt_mul'' (binary_lt fits.short exponent) (binary_lt Nat.lt_log2_self secondPower) ?_ ?_
        · exact mul_nonneg (Nat.cast_nonneg _) (zpow_nonneg (by decide) _)
        · exact mul_nonneg (Nat.cast_nonneg _) (zpow_nonneg (by decide) _)
      _ = 2 ^ ((53 + exponent) + (↑(second.log2 + 1) + secondPower)) := (zpow_add₀ (by decide) _ _).symm
  have exponents := (zpow_lt_zpow_iff_right₀ (by decide)).mp below
  have low := fits.low
  rw [target]
  omega

private theorem div_binary (fits : Fits mantissa exponent) (someFirst : 0 < first) (someSecond : 0 < second)
    (same : binary first firstPower = binary mantissa exponent * binary second secondPower) :
    UnpackedFloat.div .binary64 (.finite .positive first firstPower someFirst)
      (.finite .positive second secondPower someSecond) =
        .finite .positive mantissa exponent fits.positive := by
  have enough := target_le fits someFirst same
  unfold UnpackedFloat.div divCore
  simp only
  generalize Format.binary64.targetExponent _ = computed at enough
  generalize taken : min (firstPower - secondPower) computed = target
  generalize amount : (firstPower - secondPower - target).toNat = shift
  have moved : binary (first * 2 ^ shift) (target + secondPower) =
      binary (mantissa * second) (exponent + secondPower) := by
    rw [binary_shift, ← binary_mul, ← same]
    congr 1
    omega
  obtain ⟨count, whole, placed⟩ := eq_shifted moved (by omega)
  have divides : first <<< shift = mantissa * 2 ^ count * second := by
    rw [Nat.shiftLeft_eq, whole, Nat.mul_right_comm]
  have place : target = exponent - count := by omega
  rw [divides, Nat.mul_div_cancel _ someSecond, Nat.mul_mod_left, place]
  exact round_of_fits fits (.positive / .positive) count

end Exact

section Scientific

variable {coefficient : Nat} {power : Int}

private theorem two_pow_le_ten_pow {power : Int} (upward : 0 ≤ power) : (2 : ℚ) ^ power ≤ 10 ^ power :=
  zpow_le_zpow_left₀ upward (by decide) (by decide)

private theorem ten_pow_le_two_pow {power : Int} (downward : power ≤ 0) : (10 : ℚ) ^ power ≤ 2 ^ power := by
  obtain ⟨count, rfl⟩ : ∃ count : Nat, power = -count := ⟨(-power).toNat, by omega⟩
  rw [zpow_neg, zpow_neg]
  exact inv_anti₀ (zpow_pos (by decide) _) (two_pow_le_ten_pow (by omega))

private theorem coefficient_pos (fits : Fits mantissa exponent)
    (same : (coefficient : ℚ) * 10 ^ power = binary mantissa exponent) : 0 < coefficient := by
  refine Nat.pos_of_ne_zero fun zero => ?_
  have other : binary mantissa exponent ≠ 0 :=
    mul_ne_zero (Nat.cast_ne_zero.mpr fits.positive.ne') (zpow_ne_zero _ (by decide))
  rw [← same, zero, Nat.cast_zero, zero_mul] at other
  exact other rfl

private theorem power_lt (fits : Fits mantissa exponent) (some_ : 0 < coefficient)
    (same : (coefficient : ℚ) * 10 ^ power = binary mantissa exponent) : power < 1024 := by
  by_cases upward : power ≤ 0
  · omega
  have below : (2 : ℚ) ^ power < 2 ^ (53 + exponent) := by
    calc (2 : ℚ) ^ power ≤ 10 ^ power := two_pow_le_ten_pow (by omega)
      _ ≤ coefficient * 10 ^ power :=
        le_mul_of_one_le_left (zpow_nonneg (by decide) _) (by exact_mod_cast some_)
      _ = binary mantissa exponent := same
      _ < 2 ^ (53 + exponent) := binary_lt fits.short exponent
  have exponents := (zpow_lt_zpow_iff_right₀ (by decide)).mp below
  have high := fits.high
  omega

private theorem lt_power (fits : Fits mantissa exponent)
    (same : (coefficient : ℚ) * 10 ^ power = binary mantissa exponent) :
    -1075 < coefficient.log2 + power := by
  by_cases downward : 0 ≤ power
  · omega
  have below : (2 : ℚ) ^ exponent < 2 ^ (↑(coefficient.log2 + 1) + power) := by
    calc (2 : ℚ) ^ exponent ≤ binary mantissa exponent :=
        le_mul_of_one_le_left (zpow_nonneg (by decide) _) (by exact_mod_cast fits.positive)
      _ = coefficient * 10 ^ power := same.symm
      _ ≤ coefficient * 2 ^ power :=
        mul_le_mul_of_nonneg_left (ten_pow_le_two_pow (by omega)) (Nat.cast_nonneg _)
      _ < 2 ^ (↑(coefficient.log2 + 1) + power) := binary_lt Nat.lt_log2_self power
  have exponents := (zpow_lt_zpow_iff_right₀ (by decide)).mp below
  have low := fits.low
  omega

private theorem ofScientific_binary (fits : Fits mantissa exponent)
    (same : (coefficient : ℚ) * 10 ^ power = binary mantissa exponent) :
    UnpackedFloat.ofScientific .binary64 coefficient power = .finite .positive mantissa exponent fits.positive := by
  have some_ := coefficient_pos fits same
  have high := power_lt fits some_ same
  have low := lt_power fits same
  unfold UnpackedFloat.ofScientific
  rw [dif_neg some_.ne', if_neg (by show ¬power > 2048; omega),
    if_neg (by show ¬power < -(2048 + (coefficient.log2 : Int)); omega)]
  split
  · next upward =>
    obtain ⟨count, rfl⟩ := Int.eq_ofNat_of_zero_le upward
    have shifted : coefficient <<< Format.binary64.mantissaBits = coefficient * 2 ^ 53 := Nat.shiftLeft_eq _ _
    refine mul_binary fits ?_ _ _ ?_
    · rw [shifted, Nat.mul_right_comm]
      exact Nat.le_mul_of_pos_left _ (Nat.mul_pos some_ (Nat.pow_pos (by decide)))
    · rw [shifted, binary_shift, ← same]
      show binary coefficient 0 * binary (10 ^ count) 0 = _
      simp [binary]
  · next downward =>
    obtain ⟨count, rfl⟩ : ∃ count : Nat, power = -count := ⟨(-power).toNat, by omega⟩
    refine div_binary fits some_ _ ?_
    rw [← same, Int.neg_neg, Int.toNat_natCast]
    simp [binary]

end Scientific

section Packing

theorem toNat_leading (stored : BitVec 52) : (1#1 ++ stored).toNat = 2 ^ 52 + stored.toNat := by
  rw [BitVec.toNat_append, BitVec.toNat_ofNat, ← Nat.shiftLeft_add_eq_or_of_lt stored.isLt]
  rfl

private theorem unpack_pack_full (fits : Fits mantissa exponent) (full : 2 ^ 52 ≤ mantissa) (sign : Sign) :
    unpack .binary64 (pack .binary64 (.finite sign mantissa exponent fits.positive)) =
      .finite sign mantissa exponent fits.positive := by
  have short := fits.short
  have low := fits.low
  have high := fits.high
  have digits : mantissa.log2 = 52 := (Nat.log2_eq_iff fits.positive.ne').mpr ⟨full, short⟩
  have biased : (exponent + Format.binary64.exponentBias + Format.binary64.mantissaBitsWithoutImplicit).toNat =
      (exponent + 1075).toNat := by
    rw [Int.add_assoc]
    rfl
  have kept : (BitVec.ofNat 11 (exponent + 1075).toNat).toNat = (exponent + 1075).toNat := by
    rw [BitVec.toNat_ofNat]
    exact Nat.mod_eq_of_lt (by omega)
  have finite : BitVec.ofNat 11 (exponent + 1075).toNat ≠ -1#11 := fun same => by
    have known : (BitVec.ofNat 11 (exponent + 1075).toNat).toNat = 2047 := congrArg BitVec.toNat same
    omega
  have normal : BitVec.ofNat 11 (exponent + 1075).toNat ≠ 0#11 := fun same => by
    have known : (BitVec.ofNat 11 (exponent + 1075).toNat).toNat = 0 := congrArg BitVec.toNat same
    omega
  have whole : (1#1 ++ BitVec.ofNat 52 mantissa).toNat = mantissa := by
    rw [toNat_leading, BitVec.toNat_ofNat]
    omega
  unfold UnpackedFloat.pack
  dsimp only
  rw [biased, if_neg (by change ¬2048 ≤ _; omega), digits,
    if_pos (show 52 + 1 = Format.binary64.mantissaBits from rfl)]
  unfold UnpackedFloat.unpack
  simp only [unpackMantissa_packComponents, unpackExponent_packComponents, unpackSign_packComponents,
    Sign.ofBitVec_toBitVec, whole]
  rw [if_neg finite, if_neg normal]
  congr 1
  rw [kept]
  show ((exponent + 1075).toNat : Int) - (1023 + 52) = exponent
  omega

private theorem unpack_pack_small (positive : 0 < mantissa) (small : mantissa < 2 ^ 52) (sign : Sign) :
    unpack .binary64 (pack .binary64 (.finite sign mantissa (-1074) positive)) =
      .finite sign mantissa (-1074) positive := by
  have digits : mantissa.log2 < 52 := (Nat.log2_lt positive.ne').mpr small
  have kept : (BitVec.ofNat 52 mantissa).toNat = mantissa := by
    rw [BitVec.toNat_ofNat]
    exact Nat.mod_eq_of_lt small
  have some_ : BitVec.ofNat 52 mantissa ≠ 0#52 := fun same => by
    have known : (BitVec.ofNat 52 mantissa).toNat = 0 := congrArg BitVec.toNat same
    omega
  have few : ¬mantissa.log2 + 1 = Format.binary64.mantissaBits := by
    show ¬_ = 53
    omega
  unfold UnpackedFloat.pack
  dsimp only
  rw [if_neg (by decide), if_neg few]
  unfold UnpackedFloat.unpack
  simp only [unpackMantissa_packComponents, unpackExponent_packComponents, unpackSign_packComponents,
    Sign.ofBitVec_toBitVec]
  rw [if_neg (by decide), if_pos trivial, dif_neg some_]
  simp only [kept]
  rfl

theorem unpack_pack (fits : Fits mantissa exponent) (sign : Sign) :
    unpack .binary64 (pack .binary64 (.finite sign mantissa exponent fits.positive)) =
      .finite sign mantissa exponent fits.positive := by
  by_cases full : 2 ^ 52 ≤ mantissa
  · exact unpack_pack_full fits full sign
  · obtain rfl := fits.full.resolve_left full
    exact unpack_pack_small fits.positive (Nat.not_le.mp full) sign

end Packing

section Table

def Holds (n : Nat) (x : UnpackedFloat) : Prop :=
  ∃ mantissa exponent, ∃ fits : Fits mantissa exponent,
    2 ^ 52 ≤ mantissa ∧ x = .finite .positive mantissa exponent fits.positive ∧ binary mantissa exponent = n

private theorem fits_of_nat {n : Nat} (some_ : 0 < n) (short : n < 2 ^ 53) :
    Fits (n * 2 ^ (52 - n.log2)) (n.log2 - 52) ∧ 2 ^ 52 ≤ n * 2 ^ (52 - n.log2) := by
  have digits : n.log2 < 53 := (Nat.log2_lt some_.ne').mpr short
  have below := Nat.mul_lt_mul_of_pos_right (Nat.lt_log2_self (n := n)) (Nat.two_pow_pos (52 - n.log2))
  have above := Nat.mul_le_mul_right (2 ^ (52 - n.log2)) (Nat.log2_self_le some_.ne')
  rw [← Nat.pow_add, show n.log2 + 1 + (52 - n.log2) = 53 by omega] at below
  rw [← Nat.pow_add, show n.log2 + (52 - n.log2) = 52 by omega] at above
  exact ⟨⟨by omega, below, by omega, by omega, .inl above⟩, above⟩

private theorem holds_ofNat {n : Nat} (some_ : 0 < n) (short : n < 2 ^ 53) :
    Holds n (UnpackedFloat.ofNat .binary64 n) := by
  obtain ⟨fits, full⟩ := fits_of_nat some_ short
  have digits : n.log2 < 53 := (Nat.log2_lt some_.ne').mpr short
  have greater : compare (n : Int) 0 = .gt := by
    simp only [compare, compareOfLessAndEq]
    rw [if_neg (by omega), if_neg (by omega)]
  have target : Format.binary64.targetExponent (totalExponent n 0) = n.log2 - 52 := by
    show max ((n.log2 : Int) + 1 + 0 - 53) (-1074) = _
    omega
  have amount : (0 - ((n.log2 : Int) - 52)).toNat = 52 - n.log2 := by omega
  have value : binary (n * 2 ^ (52 - n.log2)) (n.log2 - 52) = n := by
    rw [binary_shift, show (n.log2 : Int) - 52 + (52 - n.log2 : Nat) = 0 by omega, binary, zpow_zero, mul_one]
  refine ⟨_, _, fits, full, ?_, value⟩
  unfold UnpackedFloat.ofNat UnpackedFloat.ofInt UnpackedFloat.normalize
  rw [greater]
  unfold UnpackedFloat.round UnpackedFloat.decreaseExponent
  simp only [Int.toNat_natCast, target, amount, Nat.shiftLeft_eq]
  exact round_binary fits .positive (by congr 1; omega) (by omega)

private theorem holds_unpack_pack {n : Nat} {x : UnpackedFloat} (holds : Holds n x) :
    Holds n (unpack .binary64 (pack .binary64 x)) := by
  obtain ⟨mantissa, exponent, fits, full, rfl, same⟩ := holds
  exact ⟨mantissa, exponent, fits, full, unpack_pack fits .positive, same⟩

private theorem holds_toFloat {n : Nat} (some_ : 0 < n) (short : n < 2 ^ 53) :
    Holds n n.toUInt64.toFloat.toModel.unpack := by
  have kept : n.toUInt64.toNat = n := by
    rw [Nat.toUInt64_eq, UInt64.toNat_ofNat']
    exact Nat.mod_eq_of_lt (by omega)
  show Holds n (unpack .binary64 (pack .binary64 (UnpackedFloat.ofNat .binary64 n.toUInt64.toNat)))
  rw [kept]
  exact holds_unpack_pack (holds_ofNat some_ short)

def holds (n : Nat) : UnpackedFloat → Bool
  | .finite .positive mantissa exponent _ =>
    2 ^ 52 ≤ mantissa && mantissa < 2 ^ 53 && -52 ≤ exponent && exponent ≤ 971 &&
      mantissa * 2 ^ (exponent + 52).toNat == n * 2 ^ 52
  | _ => false

private theorem holds_of_check {n : Nat} {x : UnpackedFloat} (checked : holds n x) : Holds n x := by
  unfold holds at checked
  split at checked
  · next mantissa exponent positive =>
    simp only [Bool.and_eq_true, decide_eq_true_eq, beq_iff_eq] at checked
    obtain ⟨⟨⟨⟨full, short⟩, low⟩, high⟩, same⟩ := checked
    refine ⟨mantissa, exponent, ⟨positive, short, by omega, high, .inl full⟩, full, rfl, ?_⟩
    have moved : binary (mantissa * 2 ^ (exponent + 52).toNat) (-52) = binary (n * 2 ^ 52) (-52) := by rw [same]
    rw [binary_shift, binary_shift, show -52 + ((exponent + 52).toNat : Int) = exponent by omega] at moved
    rw [moved]
    simp [binary]
  · cases checked

private theorem holds_power_of_ten {power : Nat} (few : power < Float.exactlyRepresentablePowersOfTen.size) :
    Holds (10 ^ power) Float.exactlyRepresentablePowersOfTen[power].toModel.unpack := by
  have checked : ∀ row : Fin 23,
      holds (10 ^ row.val) (Float.exactlyRepresentablePowersOfTen[row]).toModel.unpack := by
    clear few
    decide +kernel
  exact holds_of_check (checked ⟨power, few⟩)

section Operations

variable {n m : Nat} {x y : UnpackedFloat} (holdsFirst : Holds n x) (holdsSecond : Holds m y)
include holdsFirst holdsSecond

private theorem mul_holds (fits : Fits mantissa exponent) (same : (n : ℚ) * m = binary mantissa exponent) :
    UnpackedFloat.mul .binary64 x y = .finite .positive mantissa exponent fits.positive := by
  obtain ⟨first, firstPower, fitsFirst, fullFirst, rfl, valueFirst⟩ := holdsFirst
  obtain ⟨second, secondPower, fitsSecond, fullSecond, rfl, valueSecond⟩ := holdsSecond
  have long := Nat.mul_le_mul fullFirst fullSecond
  exact mul_binary fits (Nat.le_trans (by decide) long) _ _ (by rw [valueFirst, valueSecond, same])

private theorem div_holds (fits : Fits mantissa exponent) (same : (n : ℚ) = binary mantissa exponent * m) :
    UnpackedFloat.div .binary64 x y = .finite .positive mantissa exponent fits.positive := by
  obtain ⟨first, firstPower, fitsFirst, _, rfl, valueFirst⟩ := holdsFirst
  obtain ⟨second, secondPower, fitsSecond, _, rfl, valueSecond⟩ := holdsSecond
  exact div_binary fits _ _ (by rw [valueFirst, valueSecond, same])

end Operations

end Table

section Reading

variable {d : Decimal}

private theorem ofScientific_eq {coefficient power : Nat} {downward : Bool} (fits : Fits mantissa exponent)
    (same : (coefficient : ℚ) * 10 ^ (if downward then -(power : Int) else power) = binary mantissa exponent) :
    Float.ofScientific coefficient downward power =
      .ofModel (.pack (.finite .positive mantissa exponent fits.positive)) := by
  unfold Float.ofScientific
  split
  · next short =>
    have left := holds_toFloat (coefficient_pos fits same) short.1
    have right := holds_power_of_ten (show power < 23 by omega)
    cases downward with
    | true =>
      have quotient := div_holds left right fits (by rw [← same]; simp)
      exact congrArg (fun result => Float.ofModel (.pack result)) quotient
    | false =>
      have product := mul_holds left right fits (by rw [← same]; simp)
      exact congrArg (fun result => Float.ofModel (.pack result)) product
  · have computed := ofScientific_binary fits same
    cases downward <;> exact congrArg (fun result => Float.ofModel (.pack result)) computed

theorem toFloat_of_fits (fits : Fits mantissa exponent) (same : d.value = binary mantissa exponent) :
    d.toFloat = .ofModel (.pack (.finite .positive mantissa exponent fits.positive)) := by
  rw [← value_normalize] at same
  refine ofScientific_eq fits ?_
  rw [← same, value]
  congr 2
  simp only [decide_eq_true_eq]
  omega

end Reading

end Cfpl.Decimal
