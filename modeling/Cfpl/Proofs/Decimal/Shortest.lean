import Cfpl.Proofs.Decimal.Rounding

/-! The shortest numeral of a double is read as this double. -/

namespace Cfpl.Decimal

open Float.Model Float.Model.UnpackedFloat

section Bits

variable {bits : BitVec Format.binary64.numBits}

private theorem toNat_unpackMantissa : (unpackMantissa bits).toNat = bits.toNat % (1 <<< 52) := by
  rw [unpackMantissa_def, BitVec.extractLsb'_toNat]
  rfl

private theorem toNat_unpackExponent : (unpackExponent bits).toNat = (bits.toNat >>> 52) % (1 <<< 11) := by
  rw [unpackExponent_def, BitVec.extractLsb'_toNat]
  rfl

private theorem toNat_unpackSign : (unpackSign bits).toNat = bits.toNat >>> 63 := by
  rw [unpackSign_def, BitVec.extractLsb'_toNat]
  refine Nat.mod_eq_of_lt ?_
  change bits.toNat >>> 63 < 2
  rw [Nat.shiftRight_eq_div_pow]
  exact Nat.div_lt_of_lt_mul bits.isLt

private theorem parts_of_unpack {sign : Sign} {mantissa : Nat} {exponent : Int} {positive : 0 < mantissa}
    (unpacked : unpack .binary64 bits = .finite sign mantissa exponent positive) :
    sign = Sign.ofBitVec (unpackSign bits) ∧
      ((unpackExponent bits = 0 ∧ mantissa = (unpackMantissa bits).toNat ∧ exponent = -1074) ∨
        (unpackExponent bits ≠ 0 ∧ unpackExponent bits ≠ -1#11 ∧
          mantissa = 2 ^ 52 + (unpackMantissa bits).toNat ∧ exponent = (unpackExponent bits).toNat - 1075)) := by
  unfold UnpackedFloat.unpack at unpacked
  dsimp only at unpacked
  split at unpacked
  · split at unpacked <;> cases unpacked
  · next finite =>
    split at unpacked
    · next none =>
      split at unpacked
      · cases unpacked
      · obtain ⟨rfl, rfl, rfl⟩ := UnpackedFloat.finite.inj unpacked
        refine ⟨rfl, .inl ⟨none, rfl, ?_⟩⟩
        rw [none]
        rfl
    · next some_ =>
      obtain ⟨rfl, rfl, rfl⟩ := UnpackedFloat.finite.inj unpacked
      exact ⟨rfl, .inr ⟨some_, finite, toNat_leading _, rfl⟩⟩

end Bits

variable {x : Float} {sign : Sign} {mantissa : Nat} {exponent : Int} {positive : 0 < mantissa}

theorem first_bit (unpacked : x.toModel.unpack = .finite sign mantissa exponent positive) :
    x.toBits.toNat >>> 63 = 1 ↔ sign = .negative := by
  change unpack .binary64 x.toBits.toBitVec = _ at unpacked
  obtain ⟨signed, -⟩ := parts_of_unpack unpacked
  rw [signed, ← UInt64.toNat_toBitVec, ← toNat_unpackSign]
  generalize unpackSign _ = first
  obtain rfl | rfl : first = 0#1 ∨ first = 1#1 := by decide +revert
  · exact iff_of_false (by decide) nofun
  · exact iff_of_true rfl rfl

theorem magnitude_of_unpack (unpacked : x.toModel.unpack = .finite sign mantissa exponent positive) :
    Fits mantissa exponent ∧
      magnitude x = if 0 ≤ exponent then ⟨mantissa <<< exponent.toNat, 1⟩
        else ⟨mantissa, 1 <<< (-exponent).toNat⟩ := by
  change unpack .binary64 x.toBits.toBitVec = _ at unpacked
  obtain ⟨-, parts⟩ := parts_of_unpack unpacked
  unfold magnitude
  simp only
  rw [← UInt64.toNat_toBitVec, ← toNat_unpackMantissa, ← toNat_unpackExponent]
  generalize unpackMantissa _ = storedBits at parts ⊢
  generalize unpackExponent _ = scaleBits at parts ⊢
  have short : storedBits.toNat < 2 ^ 52 := storedBits.isLt
  have bounded : scaleBits.toNat < 2048 := scaleBits.isLt
  rcases parts with ⟨rfl, rfl, rfl⟩ | ⟨some_, finite, rfl, rfl⟩
  · exact ⟨⟨positive, by omega, by decide, by decide, .inr rfl⟩, rfl⟩
  · have above : scaleBits.toNat ≠ 0 := fun same => some_ (BitVec.eq_of_toNat_eq same)
    have below : scaleBits.toNat ≠ 2047 := fun same => finite (BitVec.eq_of_toNat_eq same)
    refine ⟨⟨positive, by omega, by omega, by omega, .inl (by omega)⟩, ?_⟩
    rw [if_neg above, Nat.max_eq_left (by omega), Nat.add_comm]
    by_cases upward : 1075 ≤ scaleBits.toNat
    · have power : ((scaleBits.toNat : Int) - 1075).toNat = scaleBits.toNat - 1075 := by omega
      rw [if_pos upward, if_pos (by omega), power]
      rfl
    · have power : (-((scaleBits.toNat : Int) - 1075)).toNat = 1075 - scaleBits.toNat := by omega
      rw [if_neg upward, if_neg (by omega), power]
      rfl

theorem value_exact (unpacked : x.toModel.unpack = .finite sign mantissa exponent positive) :
    (exact (magnitude x)).value = binary mantissa exponent := by
  rw [(magnitude_of_unpack unpacked).2]
  unfold exact value binary
  split
  · next upward =>
    obtain ⟨count, rfl⟩ := Int.eq_ofNat_of_zero_le upward
    have none : Nat.log2 1 = 0 := by decide
    simp [Nat.shiftLeft_eq, none]
  · next downward =>
    obtain ⟨count, rfl⟩ : ∃ count : Nat, exponent = -count := ⟨(-exponent).toNat, by omega⟩
    rw [Int.neg_neg, Int.toNat_natCast, Nat.one_shiftLeft, Nat.log2_two_pow, zpow_neg, zpow_neg, zpow_natCast,
      zpow_natCast, show (10 : ℚ) = 2 * 5 by norm_num, mul_pow, mul_inv]
    have cancel : (5 : ℚ) ^ count * ((5 : ℚ) ^ count)⁻¹ = 1 := mul_inv_cancel₀ (pow_ne_zero _ (by decide))
    simp only [Nat.pow_eq]
    push_cast
    linear_combination (mantissa : ℚ) * ((2 : ℚ) ^ count)⁻¹ * cancel

theorem toFloat_shortest (unpacked : x.toModel.unpack = .finite sign mantissa exponent positive) :
    (shortest x).toFloat = x.abs := by
  unfold shortest
  simp only
  cases found : List.find? _ _ with
  | some d =>
    have same := List.find?_some found
    exact Float.toBits_inj.mp (eq_of_beq same)
  | none =>
    have fits := (magnitude_of_unpack unpacked).1
    refine (toFloat_of_fits fits (value_exact unpacked)).trans ?_
    show _ = Float.ofModel (.pack x.toModel.unpack.abs)
    rw [unpacked]
    rfl

end Cfpl.Decimal
