import Cfpl.Proofs.Decimal.Numeral

/-! How large the number is that a row of digits spells. Zeros in front of it do not count. Whole numbers are
shown as the digits of their magnitude. -/

namespace Cfpl.Decimal

variable {first : Char} {rest digits : List Char}

private theorem ofDigits_cons (first : Char) (rest : List Char) :
    ofDigits (first :: rest) = (first.toNat - '0'.toNat) * 10 ^ rest.length + ofDigits rest := by
  have one : ofDigits [first] = first.toNat - '0'.toNat := Nat.zero_add _
  rw [← one]
  exact ofDigits_append [first] rest

private theorem digit_le {c : Char} (digit : c.isDigit) : c.toNat - '0'.toNat ≤ 9 := by
  have bound : c.toNat ≤ 57 := (Char.isDigit_iff_toNat.mp digit).2
  have zero : '0'.toNat = 48 := rfl
  omega

private theorem digit_pos {c : Char} (digit : c.isDigit) (other : c ≠ '0') : 1 ≤ c.toNat - '0'.toNat := by
  have bound : 48 ≤ c.toNat := (Char.isDigit_iff_toNat.mp digit).1
  have apart : c.toNat ≠ 48 := fun same => other (Char.toNat_inj.mp same)
  have zero : '0'.toNat = 48 := rfl
  omega

private theorem ofDigits_lt (all : Digits digits) : ofDigits digits < 10 ^ digits.length := by
  induction digits with
  | nil => exact Nat.one_pos
  | cons first rest ih =>
    obtain ⟨digit, others⟩ := List.forall_mem_cons.mp all
    calc ofDigits (first :: rest)
        = (first.toNat - '0'.toNat) * 10 ^ rest.length + ofDigits rest := ofDigits_cons first rest
      _ < (first.toNat - '0'.toNat) * 10 ^ rest.length + 10 ^ rest.length := Nat.add_lt_add_left (ih others) _
      _ = (first.toNat - '0'.toNat + 1) * 10 ^ rest.length := (Nat.succ_mul _ _).symm
      _ ≤ 10 * 10 ^ rest.length := Nat.mul_le_mul_right _ (Nat.succ_le_succ (digit_le digit))
      _ = 10 ^ (first :: rest).length := (Nat.pow_succ').symm

private theorem le_ofDigits (digit : first.isDigit) (other : first ≠ '0') (rest : List Char) :
    10 ^ rest.length ≤ ofDigits (first :: rest) := by
  rw [ofDigits_cons]
  have weight := Nat.mul_le_mul_right (10 ^ rest.length) (digit_pos digit other)
  omega

private theorem ofDigits_dropZeros (digits : List Char) :
    ofDigits (digits.dropWhile (· == '0')) = ofDigits digits := by
  induction digits with
  | nil => rfl
  | cons first rest ih =>
    by_cases zero : first = '0'
    · subst zero
      rw [List.dropWhile_cons_of_pos (by decide), ih]
      exact (ofDigits_zeros_append 1 rest).symm
    · rw [List.dropWhile_cons_of_neg (by simpa using zero)]

theorem lt_of_dropZeros {count : Nat} (all : Digits digits) (long : count < (digits.dropWhile (· == '0')).length) :
    10 ^ count ≤ ofDigits digits := by
  rw [← ofDigits_dropZeros]
  cases parted : digits.dropWhile (· == '0') with
  | nil =>
    rw [parted] at long
    exact absurd long (Nat.not_lt_zero count)
  | cons first rest =>
    rw [parted] at long
    have inside : first ∈ digits := by
      refine (List.dropWhile_sublist (· == '0')).mem ?_
      rw [parted]
      exact .head rest
    have other : first ≠ '0' := by
      have head := List.head?_dropWhile_not (· == '0') digits
      rw [parted] at head
      simpa using head
    exact Nat.le_trans (Nat.pow_le_pow_right (by decide) (Nat.le_of_lt_succ long))
      (le_ofDigits (all first inside) other rest)

theorem head_toDigits {n : Nat} (some_ : n ≠ 0) : (Nat.toDigits 10 n).head? ≠ some '0' := by
  intro zero
  obtain ⟨rest, parted⟩ := List.head?_eq_some_iff.mp zero
  have spelled := ofDigits_toDigits n
  have all := digits_toDigits n
  rw [parted] at spelled all
  have below := ofDigits_lt (List.forall_mem_cons.mp all).2
  rw [ofDigits_cons, Nat.sub_self, Nat.zero_mul, Nat.zero_add] at spelled
  rw [spelled] at below
  cases rest with
  | nil => exact some_ (Nat.lt_one_iff.mp below)
  | cons second rest =>
    have length := (Nat.length_toDigits_le_iff (by decide) (Nat.succ_pos _)).mpr below
    rw [parted] at length
    exact Nat.not_succ_le_self _ length

theorem toList_toString (n : Int) :
    (toString n).toList = if n < 0 then '-' :: Nat.toDigits 10 n.natAbs else Nat.toDigits 10 n.natAbs := by
  cases n with
  | ofNat m =>
    have above : ¬Int.ofNat m < 0 := Int.not_lt.mpr (Int.natCast_nonneg m)
    rw [if_neg above]
    exact String.toList_ofList
  | negSucc m =>
    rw [if_pos (Int.negSucc_lt_zero m)]
    show ("-" ++ String.ofList (Nat.toDigits 10 (m + 1))).toList = _
    rw [String.toList_append, String.toList_ofList, String.toList_ofList]
    rfl

end Cfpl.Decimal
