import Cfpl.Decimal
import Cfpl.Proofs.Decimal.Written
import Mathlib.Data.Int.Log
import Mathlib.Data.Rat.Floor
import Mathlib.Tactic.NormNum

/-! The power of ten that a number begins with: how it is read off the digits of a numeral and off a double. The
shortest numeral of a double lies between the same two powers of ten as the double does, both included. -/

namespace Cfpl.Decimal

open Float.Model Float.Model.UnpackedFloat

variable {size : ℚ} {n : Int}

private theorem le_log_iff (positive : 0 < size) : n ≤ Int.log 10 size ↔ (10 : ℚ) ^ n ≤ size :=
  (Int.zpow_le_iff_le_log (by decide) positive).symm

private theorem log_bounds (positive : 0 < size) :
    (10 : ℚ) ^ Int.log 10 size ≤ size ∧ size < (10 : ℚ) ^ (Int.log 10 size + 1) :=
  ⟨Int.zpow_log_le_self (by decide) positive, Int.lt_zpow_succ_log_self (by decide) size⟩

private theorem log_shifted (positive : 0 < size) (n : Int) : Int.log 10 (size * 10 ^ n) = Int.log 10 size + n := by
  have power : (0 : ℚ) < 10 ^ n := zpow_pos (by decide) n
  refine eq_of_forall_le_iff fun m => ?_
  rw [le_log_iff (mul_pos positive power), ← sub_le_iff_le_add, le_log_iff positive, zpow_sub₀ (by decide),
    div_le_iff₀ power]

private theorem length_toDigits {n : Nat} (some_ : n ≠ 0) : (Nat.toDigits 10 n).length = Nat.log 10 n + 1 := by
  refine eq_of_forall_ge_iff fun count => ?_
  cases count with
  | zero => simp [Nat.toDigits_ne_nil]
  | succ count =>
    rw [Nat.length_toDigits_le_iff (by decide) (Nat.succ_pos count), Nat.succ_le_succ_iff, ← Nat.lt_succ_iff,
      Nat.log_lt_iff_lt_pow (by decide) some_]

theorem scientificExponent_eq {d : Decimal} (some_ : d.coefficient ≠ 0) :
    scientificExponent d = Int.log 10 d.value := by
  have kept : d.normalize.coefficient ≠ 0 := fun zero => normalize_last some_ (by rw [zero])
  have positive : (0 : ℚ) < d.normalize.coefficient := Nat.cast_pos.mpr (Nat.pos_of_ne_zero kept)
  rw [← value_normalize, value, log_shifted positive, Int.log_natCast]
  unfold scientificExponent significantDigits
  rw [length_toDigits kept]
  omega

section Fraction

variable {f : Fraction}

private theorem floor_scaled (f : Fraction) (n : Int) :
    f.numerator * Nat.pow 10 (-n).toNat / (f.denominator * Nat.pow 10 n.toNat) = ⌊f.value / 10 ^ n⌋₊ := by
  rw [← Nat.floor_div_eq_div (K := ℚ)]
  congr 1
  unfold Fraction.value
  simp only [Nat.pow_eq]
  push_cast
  rcases Int.le_total 0 n with upward | downward
  · obtain ⟨count, rfl⟩ := Int.eq_ofNat_of_zero_le upward
    rw [Int.toNat_natCast, Int.toNat_neg_natCast, pow_zero, mul_one, zpow_natCast, div_div]
  · obtain ⟨count, rfl⟩ : ∃ count : Nat, n = -count := ⟨(-n).toNat, by omega⟩
    rw [Int.neg_neg, Int.toNat_natCast, Int.toNat_neg_natCast, pow_zero, mul_one, zpow_neg, zpow_natCast,
      div_inv_eq_mul, mul_div_right_comm]

private theorem length_moved (count : Nat) (enough : (10 : ℚ) ^ (-count : Int) ≤ f.value) :
    (Nat.toDigits 10 (f.numerator * Nat.pow 10 count / f.denominator)).length = Int.log 10 f.value + count + 1 := by
  have positive : 0 < f.value := (zpow_pos (by decide) _).trans_le enough
  have floor := floor_scaled f (-count)
  rw [Int.neg_neg, Int.toNat_natCast, Int.toNat_neg_natCast, zpow_neg, div_inv_eq_mul] at floor
  have moved : f.numerator * Nat.pow 10 count / f.denominator = ⌊f.value * 10 ^ (count : Int)⌋₊ := by
    rw [← floor]
    exact congrArg _ (Nat.mul_one _).symm
  have whole : 1 ≤ f.value * 10 ^ (count : Int) := by
    rw [← div_le_iff₀ (zpow_pos (by decide) _), one_div, ← zpow_neg]
    exact enough
  have some_ : ⌊f.value * 10 ^ (count : Int)⌋₊ ≠ 0 :=
    Nat.one_le_iff_ne_zero.mp ((Nat.one_le_floor_iff _).mpr whole)
  rw [moved, length_toDigits some_, ← log_shifted positive, Int.log_of_one_le_right 10 whole, Nat.cast_add_one]

private theorem leadingExponent_eq (enough : (10 : ℚ) ^ (-(324 : Nat) : Int) ≤ f.value) :
    leadingExponent f = Int.log 10 f.value := by
  unfold leadingExponent
  generalize places : 324 = count at enough ⊢
  rw [length_moved count enough]
  omega

private theorem neighbours_eq {d : Decimal} (member : d ∈ neighbours f n) :
    d.exponent = n ∧ (d.coefficient = ⌊f.value / 10 ^ n⌋₊ ∨ d.coefficient = ⌊f.value / 10 ^ n⌋₊ + 1) := by
  unfold neighbours at member
  simp only [floor_scaled] at member
  split at member <;> rcases List.mem_pair.mp member with rfl | rfl <;> simp

private theorem neighbours_between {d : Decimal} {count : Nat} (positive : 0 < f.value)
    (member : d ∈ neighbours f (Int.log 10 f.value - count)) :
    (10 : ℚ) ^ Int.log 10 f.value ≤ d.value ∧ d.value ≤ 10 ^ (Int.log 10 f.value + 1) := by
  obtain ⟨place, near⟩ := neighbours_eq member
  obtain ⟨low, high⟩ := log_bounds positive
  generalize Int.log 10 f.value = log at place near low high ⊢
  have unit : (0 : ℚ) < 10 ^ (log - count) := zpow_pos (by decide) _
  have parted : (10 : ℚ) ^ log = (10 ^ count : Nat) * 10 ^ (log - count) := by
    rw [Nat.cast_pow, Nat.cast_ofNat, ← zpow_natCast, ← zpow_add₀ (by decide)]
    congr 1
    omega
  have partedNext : (10 : ℚ) ^ (log + 1) = (10 ^ (count + 1) : Nat) * 10 ^ (log - count) := by
    rw [zpow_add_one₀ (by decide), parted, Nat.pow_succ]
    push_cast
    ring
  have least : 10 ^ count ≤ ⌊f.value / 10 ^ (log - count)⌋₊ := by
    rw [Nat.le_floor_iff (div_nonneg positive.le unit.le), le_div_iff₀ unit, ← parted]
    exact low
  have most : ⌊f.value / 10 ^ (log - count)⌋₊ < 10 ^ (count + 1) := by
    rw [Nat.floor_lt (div_nonneg positive.le unit.le), div_lt_iff₀ unit, ← partedNext]
    exact high
  unfold value
  rw [place, parted, partedNext, mul_le_mul_iff_left₀ unit, mul_le_mul_iff_left₀ unit, Nat.cast_le, Nat.cast_le]
  omega

end Fraction

section Double

variable {x : Float} {sign : Sign} {mantissa : Nat} {exponent : Int} {positive : 0 < mantissa}

private theorem binary_pos (positive : 0 < mantissa) (exponent : Int) : 0 < binary mantissa exponent :=
  mul_pos (Nat.cast_pos.mpr positive) (zpow_pos (by decide) _)

private theorem number_of_unpack (unpacked : x.toModel.unpack = .finite sign mantissa exponent positive) :
    number x = held (.finite sign mantissa exponent positive) :=
  congrArg held unpacked

theorem number_neg_iff (unpacked : x.toModel.unpack = .finite sign mantissa exponent positive) :
    number x < 0 ↔ sign = .negative := by
  have some_ := binary_pos positive exponent
  rw [number_of_unpack unpacked]
  cases sign with
  | negative => exact iff_of_true (neg_neg_of_pos some_) rfl
  | positive => exact iff_of_false (not_lt.mpr some_.le) nofun

private theorem abs_number (unpacked : x.toModel.unpack = .finite sign mantissa exponent positive) :
    |number x| = binary mantissa exponent := by
  have some_ := binary_pos positive exponent
  rw [number_of_unpack unpacked]
  cases sign with
  | negative => exact (abs_neg _).trans (abs_of_pos some_)
  | positive => exact abs_of_pos some_

private theorem value_magnitude (unpacked : x.toModel.unpack = .finite sign mantissa exponent positive) :
    (magnitude x).value = binary mantissa exponent := by
  rw [(magnitude_of_unpack unpacked).2]
  unfold Fraction.value binary
  split
  · next upward =>
    obtain ⟨count, rfl⟩ := Int.eq_ofNat_of_zero_le upward
    simp [Nat.shiftLeft_eq]
  · next downward =>
    obtain ⟨count, rfl⟩ : ∃ count : Nat, exponent = -count := ⟨(-exponent).toNat, by omega⟩
    simp [Nat.one_shiftLeft, div_eq_mul_inv]

private theorem ten_pow_le_two_pow_neg {places binaryPlaces : Nat} (enough : 2 ^ binaryPlaces ≤ 10 ^ places) :
    (10 : ℚ) ^ (-places : Int) ≤ 2 ^ (-binaryPlaces : Int) := by
  have powers : (2 : ℚ) ^ binaryPlaces ≤ 10 ^ places := by exact_mod_cast enough
  rw [zpow_neg, zpow_neg, zpow_natCast, zpow_natCast]
  exact inv_anti₀ (pow_pos (by decide) binaryPlaces) powers

private theorem least_binary (fits : Fits mantissa exponent) :
    (10 : ℚ) ^ (-(324 : Nat) : Int) ≤ binary mantissa exponent := by
  calc (10 : ℚ) ^ (-(324 : Nat) : Int)
      ≤ 2 ^ (-(1074 : Nat) : Int) := ten_pow_le_two_pow_neg (by decide +kernel)
    _ ≤ 2 ^ exponent := zpow_le_zpow_right₀ (by decide) fits.low
    _ ≤ binary mantissa exponent :=
      le_mul_of_one_le_left (zpow_nonneg (by decide) _) (Nat.one_le_cast.mpr fits.positive)

private theorem shortest_between (unpacked : x.toModel.unpack = .finite sign mantissa exponent positive) :
    (10 : ℚ) ^ Int.log 10 |number x| ≤ (shortest x).value ∧
      (shortest x).value ≤ 10 ^ (Int.log 10 |number x| + 1) := by
  have known := value_magnitude unpacked
  have some_ := binary_pos positive exponent
  rw [abs_number unpacked]
  unfold shortest
  simp only
  rw [leadingExponent_eq (known ▸ least_binary (magnitude_of_unpack unpacked).1)]
  cases found : List.find? _ _ with
  | some d =>
    obtain ⟨grid, listed, member⟩ := List.mem_flatten.mp (List.mem_of_find?_eq_some found)
    obtain ⟨count, -, rfl⟩ := List.mem_map.mp listed
    rw [← known] at some_ ⊢
    exact neighbours_between some_ member
  | none =>
    obtain ⟨low, high⟩ := log_bounds some_
    rw [Option.getD_none, value_exact unpacked]
    exact ⟨low, high.le⟩

theorem value_shortest_pos (unpacked : x.toModel.unpack = .finite sign mantissa exponent positive) :
    0 < (shortest x).value :=
  (zpow_pos (by decide) _).trans_le (shortest_between unpacked).1

theorem le_scientificExponent_iff (unpacked : x.toModel.unpack = .finite sign mantissa exponent positive)
    (above : (10 : ℚ) ^ n ≤ number (toFloat ⟨1, n⟩)) :
    n ≤ scientificExponent (shortest x) ↔ 10 ^ n ≤ |number x| := by
  have some_ : 0 < |number x| := abs_number unpacked ▸ binary_pos positive exponent
  obtain ⟨low, high⟩ := shortest_between unpacked
  rw [scientificExponent_eq (value_eq_zero_iff.not.mp (value_shortest_pos unpacked).ne'),
    le_log_iff (value_shortest_pos unpacked)]
  refine ⟨fun reached => ?_, fun reached => ?_⟩
  · by_contra below
    have next : Int.log 10 |number x| + 1 ≤ n := by
      rw [Int.add_one_le_iff, ← Int.not_le, le_log_iff some_]
      exact below
    have most : (shortest x).value ≤ 10 ^ n := high.trans (zpow_le_zpow_right₀ (by decide) next)
    have same : (shortest x).value = value ⟨1, n⟩ := by
      rw [le_antisymm most reached, value, Nat.cast_one, one_mul]
    rw [← toFloat_congr same, toFloat_shortest unpacked, number_of_unpack (unpack_abs unpacked)] at above
    rw [abs_number unpacked] at below
    exact below above
  · exact (zpow_le_zpow_right₀ (by decide) ((le_log_iff some_).mpr reached)).trans low

end Double

end Cfpl.Decimal
