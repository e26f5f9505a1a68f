import Cfpl.Decimal
import Cfpl.Decimal.Numeral
import Mathlib

/-! Numerals of one number have one normal form, so they are read as the same double. There are three doubles
that are no finite numbers, and the texts that documents spell them with are read back. -/

namespace Cfpl.Decimal

private theorem value_tenfold (coefficient : Nat) (exponent : Int) :
    value ⟨10 * coefficient, exponent⟩ = value ⟨coefficient, exponent + 1⟩ := by
  unfold value
  rw [zpow_add_one₀ (by decide)]
  push_cast
  ring

private theorem value_moveZeros (limit coefficient : Nat) (exponent : Int) :
    (moveZeros limit coefficient exponent).value = value ⟨coefficient, exponent⟩ := by
  induction limit generalizing coefficient exponent with
  | zero => rfl
  | succ limit ih =>
    unfold moveZeros
    split
    · next zero =>
      rw [ih, ← value_tenfold, Nat.mul_div_cancel' (Nat.dvd_of_mod_eq_zero zero)]
    · rfl

theorem value_normalize (d : Decimal) : d.normalize.value = d.value := by
  unfold normalize
  split
  · next zero =>
    unfold value
    rw [zero]
    simp
  · exact value_moveZeros _ _ _

private theorem moveZeros_last {limit coefficient : Nat} (exponent : Int) (some_ : coefficient ≠ 0)
    (enough : coefficient < 2 ^ (limit + 1)) : (moveZeros limit coefficient exponent).coefficient % 10 ≠ 0 := by
  induction limit generalizing coefficient exponent with
  | zero =>
    show coefficient % 10 ≠ 0
    omega
  | succ limit ih =>
    unfold moveZeros
    split
    · next zero =>
      rw [Nat.pow_succ] at enough
      exact ih (exponent + 1) (by omega) (by omega)
    · next other => exact other

theorem normalize_last {d : Decimal} (some_ : d.coefficient ≠ 0) : d.normalize.coefficient % 10 ≠ 0 := by
  unfold normalize
  rw [if_neg some_]
  exact moveZeros_last d.exponent some_ Nat.lt_log2_self

theorem value_eq_zero_iff {d : Decimal} : d.value = 0 ↔ d.coefficient = 0 := by
  unfold value
  rw [mul_eq_zero, Nat.cast_eq_zero, or_iff_left (zpow_ne_zero _ (by decide))]

private theorem exponent_le_of_value_eq {a b : Decimal} (same : a.value = b.value) (last : b.coefficient % 10 ≠ 0) :
    a.exponent ≤ b.exponent := by
  refine Int.not_lt.mp fun above => last ?_
  obtain ⟨count, later⟩ : ∃ count : Nat, a.exponent = b.exponent + count + 1 :=
    ⟨(a.exponent - b.exponent - 1).toNat, by omega⟩
  unfold value at same
  rw [later, Int.add_assoc, zpow_add₀ (by decide), mul_left_comm, mul_comm,
    mul_left_inj' (zpow_ne_zero _ (by decide))] at same
  have whole : a.coefficient * 10 ^ (count + 1) = b.coefficient := by exact_mod_cast same
  rw [← whole, Nat.pow_succ, ← Nat.mul_assoc]
  exact Nat.mul_mod_left _ 10

private theorem eq_of_value_eq {a b : Decimal} (same : a.value = b.value) (lastA : a.coefficient % 10 ≠ 0)
    (lastB : b.coefficient % 10 ≠ 0) : a = b := by
  have exponents := Int.le_antisymm (exponent_le_of_value_eq same lastB)
    (exponent_le_of_value_eq same.symm lastA)
  unfold value at same
  rw [exponents, mul_left_inj' (zpow_ne_zero _ (by decide)), Nat.cast_inj] at same
  cases a
  cases b
  cases exponents
  cases same
  rfl

private theorem normalize_congr {a b : Decimal} (same : a.value = b.value) : a.normalize = b.normalize := by
  by_cases zero : a.value = 0
  · have zeroB : b.value = 0 := same ▸ zero
    unfold normalize
    rw [if_pos (value_eq_zero_iff.mp zero), if_pos (value_eq_zero_iff.mp zeroB)]
  · have zeroB : b.value ≠ 0 := same ▸ zero
    have values : a.normalize.value = b.normalize.value := by rw [value_normalize, value_normalize, same]
    exact eq_of_value_eq values (normalize_last (value_eq_zero_iff.not.mp zero))
      (normalize_last (value_eq_zero_iff.not.mp zeroB))

theorem toFloat_congr {a b : Decimal} (same : a.value = b.value) : a.toFloat = b.toFloat := by
  unfold toFloat
  rw [normalize_congr same]

open Float.Model (Format UnpackedFloat)

theorem eq_of_unpack {x y : Float} (same : x.toModel.unpack = y.toModel.unpack) : x = y := by
  have bits := (UnpackedFloat.unpack_inj_of_valid x.toModel.valid y.toModel.valid).mp same
  exact Float.toBits_inj.mp (UInt64.toBitVec_inj.mp bits)

theorem cases_of_not_finite {x : Float} (notFinite : x.isFinite = false) :
    x = infinity ∨ x = infinity.neg ∨ x = notANumber := by
  cases unpacked : x.toModel.unpack with
  | infinity sign =>
    cases sign with
    | positive => exact .inl (eq_of_unpack unpacked)
    | negative => exact .inr (.inl (eq_of_unpack unpacked))
  | notANumber => exact .inr (.inr (eq_of_unpack unpacked))
  | zero | finite =>
    change x.toModel.unpack.isFinite = false at notFinite
    rw [unpacked] at notFinite
    cases notFinite

theorem read?_write {x : Float} (notFinite : x.isFinite = false) :
    read? (documentLayout.write x) = some x := by
  -- Only three doubles are left, and their texts are short enough to be read here.
  rcases cases_of_not_finite notFinite with rfl | rfl | rfl <;> decide +kernel

end Cfpl.Decimal
