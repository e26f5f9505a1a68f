import Cfpl.Proofs.Decimal.Written
import Cfpl.Proofs.Value.Guess
import Cfpl.Proofs.Value.Proper
import Cfpl.Proofs.Value.Whole

/-! What is shown of a value is read back as this value: the notations of the output are among those of the
input. Only the words for truth are not, as an input field has to have them in capital letters. -/

namespace Cfpl

namespace Field

private theorem character?_singleton (c : Char) : character? (.singleton c) = some c := by
  unfold character?
  rw [String.toList_singleton]

end Field

namespace Value

/-- What is shown of a value is read as this value where one of its kind is expected, unless it is a truth value:
this one is found when the field is looked at again. -/
theorem shown_is_read_back (value : Value) (proper : value.Proper) (some_ : value.kind ≠ .absent) (shown : String)
    (member : shown ∈ [value.output, value.text]) :
    (value.kind ≠ .boolean → Field.read value.kind shown = .ok value) ∧
      (value.kind = .boolean →
        Field.read value.kind shown = .error (.notBoolean shown) ∧ Field.guess shown = value) := by
  cases value with
  | integer n =>
    obtain rfl : shown = toString n := by simpa [output, text] using member
    refine ⟨fun _ => ?_, nofun⟩
    show (Field.integer? (toString n)).map Value.integer = _
    rw [Field.integer?_toString proper]
    rfl
  | float x =>
    have read : Decimal.read? shown = some x := by
      obtain ⟨whole, short⟩ := Decimal.read?_displayed x
      rcases List.mem_pair.mp member with rfl | rfl
      · exact short
      · exact whole
    refine ⟨fun _ => ?_, nofun⟩
    simp only [kind, Field.read, read]
  | character c =>
    obtain rfl : shown = .singleton c := by simpa [output, text] using member
    refine ⟨fun _ => ?_, nofun⟩
    simp only [kind, Field.read, Field.character?_singleton]
  | boolean truth =>
    obtain rfl : shown = if truth then "true" else "false" := by simpa [output, text] using member
    refine ⟨fun other => absurd rfl other, fun _ => ?_⟩
    cases truth with
    | true => exact ⟨rfl, Field.guess_of_mentions (.inl (by decide))⟩
    | false => exact ⟨rfl, Field.guess_of_mentions (.inr (by decide))⟩
  | string content =>
    obtain rfl : shown = content := by simpa [output, text] using member
    exact ⟨fun _ => rfl, nofun⟩
  | absent => exact absurd rfl some_

theorem limits_are_read_back :
    Field.read .integer "-2147483648" = .ok (.integer (-2147483648)) ∧
      Field.read .float "-0" = .ok (.float (-0.0)) ∧
      Field.read .boolean "true" = .error (.notBoolean "true") ∧ Field.guess "true" = .boolean true := by
  have lowest := shown_is_read_back (.integer (-2147483648)) (by show Integer.InRange _; decide) (by decide)
    "-2147483648" (by decide)
  have zero := shown_is_read_back (.float (-0.0)) trivial (by decide) "-0" (by decide +kernel)
  have truth := shown_is_read_back (.boolean true) trivial (by decide) "true" (by decide)
  exact ⟨lowest.1 (by decide), zero.1 (by decide), truth.2 rfl⟩

end Value

end Cfpl
