/-! Whole numbers of 32 bits in two's complement. Every operation computes on whole numbers without
bound and brings the result back into the range from `-2 ^ 31` to `2 ^ 31 - 1`. -/

namespace Cfpl.Integer

def rangeSize : Nat := 1 <<< 32

theorem rangeSize_eq : rangeSize = 4294967296 := rfl

/-- The number of the range that differs by a multiple of its size. -/
def wrap (n : Int) : Int := n.bmod rangeSize

theorem wrap_eq_emod (n : Int) : wrap n = (n - -2147483648) % 4294967296 + -2147483648 := by
  have low := Int.le_bmod (x := n) (m := 4294967296) (by decide)
  have high := Int.bmod_lt (x := n) (m := 4294967296) (by decide)
  have congruent : n.bmod 4294967296 % 4294967296 = n % 4294967296 := Int.bmod_emod
  rw [wrap, rangeSize_eq]
  omega

def InRange (n : Int) : Prop := -2147483648 ≤ n ∧ n ≤ 2147483647

instance (n : Int) : Decidable (InRange n) :=
  inferInstanceAs (Decidable (_ ∧ _))

theorem inRange_wrap (n : Int) : InRange (wrap n) := by
  rw [wrap_eq_emod, InRange]
  omega

theorem wrap_of_inRange {n : Int} (within : InRange n) : wrap n = n := by
  obtain ⟨low, high⟩ := within
  rw [wrap_eq_emod]
  omega

/-- The quotient without its fraction; none by zero. -/
def quotient? (a b : Int) : Option Int := if b = 0 then none else some (a.tdiv b)

/-- The quotient of the absolute values, negative where the signs differ. -/
def signedQuotient (a b : Int) : Int :=
  let magnitude : Int := a.natAbs / b.natAbs
  if (a < 0) ≠ (b < 0) then -magnitude else magnitude

theorem tdiv_eq_signedQuotient (a b : Int) : a.tdiv b = signedQuotient a b := by
  cases a with
  | ofNat m =>
    cases b with
    | ofNat n => simp [signedQuotient, Int.not_lt.mpr (Int.natCast_nonneg _)]
    | negSucc n => simp [signedQuotient, Int.tdiv, Int.negSucc_lt_zero]
  | negSucc m =>
    cases b with
    | ofNat n => simp [signedQuotient, Int.tdiv, Int.negSucc_lt_zero]
    | negSucc n => simp [signedQuotient, Int.tdiv, Int.negSucc_lt_zero]

theorem quotient?_of_ne_zero (a : Int) {b : Int} (divisor : b ≠ 0) :
    quotient? a b = some (signedQuotient a b) := by
  rw [quotient?, if_neg divisor, tdiv_eq_signedQuotient]

/-- The remainder that belongs to `quotient?`. It has the sign of the dividend. -/
def remainder? (a b : Int) : Option Int := if b = 0 then none else some (a.tmod b)

theorem remainder?_eq_map (a b : Int) : remainder? a b = (quotient? a b).map fun q => a - b * q := by
  unfold remainder? quotient?
  split
  · rfl
  · rw [Option.map_some, Int.tmod_def]

def toFloat? (n : Int) : Option Float :=
  let x := Float.ofInt n
  if x.isInf then none else some x

end Cfpl.Integer
