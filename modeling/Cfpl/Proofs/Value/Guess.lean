import Mathlib
import Cfpl.Proofs.Value.Proper
import Cfpl.Run.Entry

/-! What an input field looks like that cannot be read as a value of the kind that is wanted. It looks like
something else then, unless a truth value is wanted and one is mentioned in letters of another case. -/

namespace Cfpl.Field

private theorem occurs_toUpper (word text : List Char) :
    Text.occurs (word.map Char.toUpper) (text.map Char.toUpper) =
      Text.occurs (word.map Char.toLower) (text.map Char.toLower) := by
  rw [Bool.eq_iff_iff, Text.occurs_iff, Text.occurs_iff]
  constructor
  · intro inside
    simpa [List.map_map, Function.comp_def] using inside.map Char.toLower
  · intro inside
    simpa [List.map_map, Function.comp_def] using inside.map Char.toUpper

private theorem truth?_toUpper (field : String) :
    truth? (field.toList.map Char.toUpper) =
      if mentions "true" field then some true else if mentions "false" field then some false else none := by
  have truth : Text.occurs "TRUE".toList (field.toList.map Char.toUpper) = mentions "true" field :=
    occurs_toUpper "true".toList field.toList
  have falsehood : Text.occurs "FALSE".toList (field.toList.map Char.toUpper) = mentions "false" field :=
    occurs_toUpper "false".toList field.toList
  unfold truth?
  rw [truth, falsehood]

private theorem character?_of_mentions {word field : String} (long : 1 < word.toList.length)
    (mentioned : mentions word field) : character? field = none := by
  have inside := (Text.occurs_iff.mp mentioned).length_le
  rw [List.length_map] at inside
  unfold character?
  split
  · next same =>
    rw [same, List.length_singleton] at inside
    omega
  · rfl

theorem guess_of_mentions {field : String} (mentioned : mentions "true" field ∨ mentions "false" field) :
    guess field = .boolean (mentions "true" field) := by
  have long : character? field = none := by
    rcases mentioned with truth | falsehood
    · exact character?_of_mentions (by decide) truth
    · exact character?_of_mentions (by decide) falsehood
  unfold guess
  rw [long, truth?_toUpper]
  by_cases truth : mentions "true" field
  · rw [if_pos truth, truth]
  · rw [if_neg truth, if_pos (mentioned.resolve_left truth), Bool.eq_false_iff.mpr truth]

/-- What a field must have to look like a value of a kind. -/
def LooksLike (field : String) : Kind → Prop
  | .integer => ∃ n, integer? field = .ok n
  | .float => ∃ x, Decimal.read? field = some x
  | .character => ∃ c, character? field = some c
  | .boolean => mentions "true" field ∨ mentions "false" field
  | .string => True
  | .absent => False

private theorem looksLike_guess (field : String) : LooksLike field (guess field).kind := by
  unfold guess
  rw [truth?_toUpper]
  split
  · next c found => exact ⟨c, found⟩
  · split
    · next truth found =>
      by_cases mentioned : mentions "true" field
      · exact .inl mentioned
      · rw [if_neg mentioned] at found
        exact .inr (Option.ite_none_right_eq_some.mp found).1
    · cases whole : integer? field with
      | ok n => exact ⟨n, whole⟩
      | error error =>
        cases real : Decimal.read? field with
        | some x => exact ⟨x, real⟩
        | none => trivial

theorem kind_ne_absent {kind : Kind} {field : String} {error : FieldError}
    (unfit : read kind field = .error error) : kind ≠ .absent := by
  rintro rfl
  cases unfit

theorem kind_guess_ne {kind : Kind} {field : String} {error : FieldError} (unfit : read kind field = .error error)
    (other : ¬(kind = .boolean ∧ (mentions "true" field ∨ mentions "false" field))) :
    (guess field).kind ≠ kind := by
  intro same
  have known := looksLike_guess field
  rw [same] at known
  unfold read at unfit
  cases kind with
  | integer =>
    obtain ⟨n, found⟩ := known
    rw [found] at unfit
    cases unfit
  | float =>
    obtain ⟨x, found⟩ := known
    rw [found] at unfit
    cases unfit
  | character =>
    obtain ⟨c, found⟩ := known
    rw [found] at unfit
    cases unfit
  | boolean => exact other ⟨rfl, known⟩
  | string => cases unfit
  | absent => cases unfit

end Cfpl.Field
