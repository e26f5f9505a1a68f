import Cfpl.Proofs.Decimal.Numeral
import Cfpl.Proofs.Decimal.Shortest

/-! What a layout writes of a double is read as this double, with or without the point and the zero that it may
end in. -/

namespace Cfpl.Decimal

open Float.Model Float.Model.UnpackedFloat

section Sign

def signed (sign : Sign) (text : List Char) : List Char :=
  match sign with
  | .negative => '-' :: text
  | .positive => text

private theorem withoutZeroFraction_signed (sign : Sign) (text : List Char) :
    Value.withoutZeroFraction (signed sign text) = signed sign (Value.withoutZeroFraction text) := by
  cases sign with
  | positive => rfl
  | negative =>
    have apart : ['.', '0'] <:+ '-' :: text ↔ ['.', '0'] <:+ text := by
      rw [List.suffix_cons_iff, or_iff_right (by simp)]
    show (if ['.', '0'].isSuffixOf ('-' :: text) then _ else _) =
      '-' :: if ['.', '0'].isSuffixOf text then _ else _
    simp only [List.isSuffixOf_iff_suffix, apart]
    split
    · next suffix =>
      obtain ⟨front, rfl⟩ := suffix
      show ('-' :: (front ++ ['.', '0'])).dropLast.dropLast = '-' :: (front ++ ['.', '0']).dropLast.dropLast
      rw [List.append_cons, ← List.cons_append, ← List.cons_append, List.dropLast_concat, List.dropLast_concat,
        List.dropLast_concat, List.dropLast_concat]
    · rfl

variable {x : Float} {sign : Sign} {mantissa : Nat} {exponent : Int} {positive : 0 < mantissa}

theorem unpack_abs (unpacked : x.toModel.unpack = .finite sign mantissa exponent positive) :
    x.abs.toModel.unpack = .finite .positive mantissa exponent positive := by
  change unpack .binary64 (pack .binary64 x.toModel.unpack.abs) = _
  rw [unpacked]
  exact unpack_pack (magnitude_of_unpack unpacked).1 .positive

theorem eq_signed_abs (unpacked : x.toModel.unpack = .finite sign mantissa exponent positive) :
    x = match sign with
      | .negative => x.abs.neg
      | .positive => x.abs := by
  have fits := (magnitude_of_unpack unpacked).1
  have size := unpack_abs unpacked
  cases sign with
  | negative =>
    refine eq_of_unpack (unpacked.trans ?_)
    change _ = unpack .binary64 (pack .binary64 x.abs.toModel.unpack.neg)
    rw [size]
    exact (unpack_pack fits .negative).symm
  | positive => exact eq_of_unpack (unpacked.trans size.symm)

private theorem read?_signed {text : List Char} (unpacked : x.toModel.unpack = .finite sign mantissa exponent positive)
    (spells : Spells text (shortest x).value) : read? (.ofList (signed sign text)) = some x := by
  obtain ⟨d, numeral, same⟩ := spells
  obtain ⟨withoutSign, withSign⟩ := read?_of_numeral numeral
  have known := eq_signed_abs unpacked
  rw [toFloat_congr same, toFloat_shortest unpacked] at withoutSign withSign
  cases sign with
  | negative => exact withSign.trans (congrArg some known.symm)
  | positive => exact withoutSign.trans (congrArg some known.symm)

theorem write_of_unpack (layout : Layout) (unpacked : x.toModel.unpack = .finite sign mantissa exponent positive) :
    layout.write x = .ofList (signed sign (layout.positive (shortest x))) := by
  have number : x.isNaN = false := by
    show x.toModel.unpack.isNaN = false
    rw [unpacked]
    rfl
  have finite : x.isInf = false := by
    show x.toModel.unpack.isInf = false
    rw [unpacked]
    rfl
  have some_ : (x == 0.0) = false := by
    show x.toModel.unpack.beq (Float.toModel 0.0).unpack = false
    rw [unpacked]
    cases sign <;> rfl
  unfold Layout.write
  simp only [number, finite, some_, Bool.false_eq_true, if_false]
  cases sign with
  | negative =>
    rw [if_pos ((first_bit unpacked).mpr rfl)]
    exact String.ofList_append.symm
  | positive =>
    rw [if_neg fun bit => nomatch (first_bit unpacked).mp bit]
    exact String.empty_append

end Sign

theorem cases_of_unpack (x : Float) :
    x ∈ [0.0, -0.0, infinity, infinity.neg, notANumber] ∨
      ∃ sign mantissa exponent positive, x.toModel.unpack = .finite sign mantissa exponent positive := by
  cases unpacked : x.toModel.unpack with
  | finite sign mantissa exponent positive => exact .inr ⟨sign, mantissa, exponent, positive, rfl⟩
  | zero sign =>
    refine .inl ?_
    cases sign with
    | positive => exact List.mem_of_getElem (i := 0) (h := by decide) (eq_of_unpack unpacked).symm
    | negative => exact List.mem_of_getElem (i := 1) (h := by decide) (eq_of_unpack unpacked).symm
  | infinity | notANumber =>
    have notFinite : x.isFinite = false := by
      show x.toModel.unpack.isFinite = false
      rw [unpacked]
      rfl
    rcases cases_of_not_finite notFinite with rfl | rfl | rfl <;> simp

theorem read?_displayed (x : Float) :
    read? (displayLayout.write x) = some x ∧
      read? (.ofList (Value.withoutZeroFraction (displayLayout.write x).toList)) = some x := by
  rcases cases_of_unpack x with special | ⟨sign, mantissa, exponent, positive, unpacked⟩
  · revert x
    decide +kernel
  · have spells := spells_positive displayLayout (by decide) (shortest x)
    rw [write_of_unpack displayLayout unpacked, String.toList_ofList, withoutZeroFraction_signed]
    exact ⟨read?_signed unpacked spells, read?_signed unpacked (spells_withoutZeroFraction spells)⟩

end Cfpl.Decimal
