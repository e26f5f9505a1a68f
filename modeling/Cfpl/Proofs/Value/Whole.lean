import Cfpl.Proofs.Decimal.Digits
import Cfpl.Proofs.Value.Proper

/-! Whole numbers that are read from texts. A text is read if it spells a number of the 32-bit range with no more
digits than are converted. That numbers with more than ten digits are told from the text alone makes no
difference to that: the zeros in front do not count there. -/

namespace Cfpl.Field

open Decimal (Digits Whole ofDigits)

variable {text digits : List Char} {n : Int}

private theorem signedDigits?_of_digits (some_ : digits ≠ []) (all : Digits digits) :
    signedDigits? digits = some (ofDigits digits : Int) ∧
      signedDigits? ('+' :: digits) = some (ofDigits digits : Int) ∧
      signedDigits? ('-' :: digits) = some (-(ofDigits digits : Int)) := by
  have known : (!digits.isEmpty && digits.all Char.isDigit) = true := by
    rw [List.isEmpty_eq_false_iff.mpr some_, List.all_eq_true.mpr all]
    rfl
  refine ⟨?_, ?_, ?_⟩
  · unfold signedDigits?
    split
    next sign rest parted =>
    split at parted
    · exact absurd (all '-' (.head _)) (by decide)
    · exact absurd (all '+' (.head _)) (by decide)
    · cases parted
      rw [if_pos known, Int.one_mul]
  · exact (if_pos known).trans (congrArg some (Int.one_mul _))
  · exact (if_pos known).trans (congrArg some (Int.neg_one_mul _))

private theorem signedDigits?_of_whole (whole : Whole text digits n) : signedDigits? text = some n := by
  cases whole with
  | unsigned some_ all => exact (signedDigits?_of_digits some_ all).1
  | plus some_ all => exact (signedDigits?_of_digits some_ all).2.1
  | minus some_ all => exact (signedDigits?_of_digits some_ all).2.2

private theorem whole_of_signedDigits? (read : signedDigits? text = some n) : ∃ digits, Whole text digits n := by
  unfold signedDigits? at read
  split at read
  next sign digits parted =>
  split at read
  · next known =>
    obtain ⟨some_, all⟩ : digits ≠ [] ∧ Digits digits := by simpa [Digits] using known
    cases read
    split at parted
    · cases parted
      rw [Int.neg_one_mul]
      exact ⟨_, .minus some_ all⟩
    · cases parted
      rw [Int.one_mul]
      exact ⟨_, .plus some_ all⟩
    · cases parted
      rw [Int.one_mul]
      exact ⟨_, .unsigned some_ all⟩
  · cases read

private theorem withoutSign_of_whole (whole : Whole text digits n) : withoutSign text = digits := by
  have kept {digits : List Char} (all : Digits digits) : withoutSign digits = digits := by
    cases digits with
    | nil => rfl
    | cons first rest =>
      have digit := all first (.head _)
      refine List.dropWhile_cons_of_neg fun sign => ?_
      rcases Bool.or_eq_true_iff.mp sign with plus | minus
      · exact absurd digit (by rw [eq_of_beq plus]; decide)
      · exact absurd digit (by rw [eq_of_beq minus]; decide)
  cases whole with
  | unsigned some_ all => exact kept all
  | plus some_ all | minus some_ all => exact kept all

private theorem integer?_of_whole {text : String} (whole : Whole text.toList digits n) :
    integer? text =
      if 10 < (digits.dropWhile (· == '0')).length then .error (.outOfRange text)
      else if digitLimit < digits.length then .error (.tooManyDigits digits.length)
      else if Integer.InRange n then .ok n
      else .error (.outOfRange text) := by
  unfold integer?
  rw [signedDigits?_of_whole whole, withoutSign_of_whole whole]

theorem significant_of_inRange (whole : Whole text digits n) (inRange : Integer.InRange n) :
    (digits.dropWhile (· == '0')).length ≤ 10 := by
  refine Nat.not_lt.mp fun long => ?_
  unfold Integer.InRange at inRange
  have large {digits : List Char} (all : Digits digits) (long : 10 < (digits.dropWhile (· == '0')).length) :
      10 ^ 10 ≤ ofDigits digits := Decimal.lt_of_dropZeros all long
  cases whole with
  | unsigned some_ all | plus some_ all | minus some_ all =>
    have weight := large all long
    omega

theorem integer?_eq_ok_iff {text : String} :
    integer? text = .ok n ↔
      ∃ digits, Whole text.toList digits n ∧ Integer.InRange n ∧ digits.length ≤ digitLimit := by
  constructor
  · intro read
    cases spelled : signedDigits? text.toList with
    | none =>
      unfold integer? at read
      rw [spelled] at read
      cases read
    | some m =>
      obtain ⟨digits, whole⟩ := whole_of_signedDigits? spelled
      rw [integer?_of_whole whole] at read
      split at read
      · cases read
      · split at read
        · cases read
        next short =>
          split at read
          next inRange =>
            cases read
            exact ⟨digits, whole, inRange, Nat.not_lt.mp short⟩
          · cases read
  · rintro ⟨digits, whole, inRange, short⟩
    rw [integer?_of_whole whole, if_neg (Nat.not_lt.mpr (significant_of_inRange whole inRange)),
      if_neg (Nat.not_lt.mpr short), if_pos inRange]

section Refused

variable {text : String}

theorem integer?_outOfRange (whole : Whole text.toList digits n) (outside : ¬Integer.InRange n)
    (told : 10 < (digits.dropWhile (· == '0')).length ∨ digits.length ≤ digitLimit) :
    integer? text = .error (.outOfRange text) := by
  rw [integer?_of_whole whole, if_neg outside]
  rcases told with many | short
  · exact if_pos many
  · rw [if_neg (Nat.not_lt.mpr short), ite_self]

theorem integer?_tooManyDigits (whole : Whole text.toList digits n)
    (few : (digits.dropWhile (· == '0')).length ≤ 10) (long : digitLimit < digits.length) :
    integer? text = .error (.tooManyDigits digits.length) := by
  rw [integer?_of_whole whole, if_neg (Nat.not_lt.mpr few), if_pos long]

end Refused

private theorem whole_toString (n : Int) : Whole (toString n).toList (Nat.toDigits 10 n.natAbs) n := by
  have some_ : Nat.toDigits 10 n.natAbs ≠ [] := Nat.toDigits_ne_nil
  have all : Digits (Nat.toDigits 10 n.natAbs) := Decimal.digits_toDigits n.natAbs
  have spelled := Decimal.ofDigits_toDigits n.natAbs
  rw [Decimal.toList_toString]
  split
  · have whole := Whole.minus some_ all
    rwa [spelled, show -(n.natAbs : Int) = n by omega] at whole
  · have whole := Whole.unsigned some_ all
    rwa [spelled, show (n.natAbs : Int) = n by omega] at whole

theorem integer?_toString {n : Int} (inRange : Integer.InRange n) : integer? (toString n) = .ok n := by
  refine integer?_eq_ok_iff.mpr ⟨_, whole_toString n, inRange, ?_⟩
  unfold Integer.InRange at inRange
  have short : (Nat.toDigits 10 n.natAbs).length ≤ 10 :=
    (Nat.length_toDigits_le_iff (by decide) (by decide)).mpr (by omega)
  exact Nat.le_trans short (by decide)

end Cfpl.Field
