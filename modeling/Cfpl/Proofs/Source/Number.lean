import Cfpl.Proofs.Source.Recut
import Cfpl.Proofs.Value.Whole

/-! Whole numbers in a text. A run of digits without a fraction behind it is one number: what it spells, if that is
in the 32-bit range and is converted, and otherwise zero, with a report of what is wrong. -/

namespace Cfpl.Source

open Decimal (Digits Whole ofDigits)

section Run

variable {digits behind : List Char} (some_ : digits ≠ []) (all : Digits digits)

private theorem fraction_absent (noPlace : ∀ c more, behind = '.' :: c :: more → ¬c.isDigit) :
    fraction behind = [] := by
  unfold fraction
  split
  · next rest =>
    cases rest with
    | nil => rfl
    | cons c more =>
      have stops := noPlace c more rfl
      simp only [List.takeWhile_cons_of_neg stops, List.isEmpty_nil, if_true]
  · rfl

include some_ all

private theorem piece_of_run {context : Context} (ends : ∀ c ∈ behind.head?, ¬c.isDigit)
    (noPlace : ∀ c more, behind = '.' :: c :: more → ¬c.isDigit) :
    ∃ others, textOf others = behind ∧ piecesFrom context (digits ++ behind) =
      (match Field.integer? (.ofList digits) with
        | .ok n => ⟨digits, context.line, some (.number, some (.integer n)), []⟩
        | .error error => ⟨digits, context.line, some (.number, some (.integer 0)), [.number error]⟩) ::
        others := by
  cases digits with
  | nil => exact absurd rfl some_
  | cons first tail =>
    obtain ⟨digit, others⟩ := List.forall_mem_cons.mp all
    have taken : (tail ++ behind).takeWhile Char.isDigit = tail := takeWhile_bounded others ends
    have made : number first (tail ++ behind) =
        match Field.integer? (.ofList (first :: tail)) with
        | .ok n => .value tail .number (.integer n)
        | .error error => ⟨tail, some (.number, some (.integer 0)), [.number error]⟩ := by
      unfold number
      simp only
      rw [taken, List.drop_left, fraction_absent noPlace]
      rfl
    rw [List.cons_append, piecesFrom, cut_of_digit digit, made]
    cases Field.integer? (.ofList (first :: tail)) with
    | ok n => exact ⟨_, (textOf_piecesFrom _ _).trans List.drop_left, rfl⟩
    | error error => exact ⟨_, (textOf_piecesFrom _ _).trans List.drop_left, rfl⟩

private theorem number_of_run {source : String} {earlier later : List Piece} (split : pieces source = earlier ++ later)
    (text : textOf later = digits ++ behind) (ends : ∀ c ∈ behind.head?, ¬c.isDigit)
    (noPlace : ∀ c more, behind = '.' :: c :: more → ¬c.isDigit) :
    ∃ piece others, later = piece :: others ∧ textOf others = behind ∧
      (∀ n, Field.integer? (.ofList digits) = .ok n →
        piece.token? = some ⟨.number, .ofList digits, some (.integer n), (1 + lineFeeds (textOf earlier) : Nat)⟩ ∧
          piece.diagnostics = []) ∧
      ∀ error, Field.integer? (.ofList digits) = .error error →
        piece.token? = some ⟨.number, .ofList digits, some (.integer 0), (1 + lineFeeds (textOf earlier) : Nat)⟩ ∧
          piece.diagnostics = [.onLine (1 + lineFeeds (textOf earlier) : Nat) error.message] := by
  obtain ⟨context, last, fits, again⟩ := rest_of_split split
  obtain ⟨others, left, made⟩ := @piece_of_run _ _ some_ all context ends noPlace
  rw [text, made] at again
  have sameLine : '\n' ∉ digits := fun member => absurd (all _ member) (by decide)
  have none {part : List Char} (inside : part.Sublist digits) :
      lineFeeds (textOf earlier ++ part) = lineFeeds (textOf earlier) := by
    have absent : lineFeeds part = 0 := List.count_eq_zero.mpr fun member => sameLine (inside.mem member)
    rw [lineFeeds_append, absent, Nat.add_zero]
  refine ⟨_, others, again.symm, left, ?_, ?_⟩
  · intro n read
    rw [read]
    refine ⟨?_, rfl⟩
    simp only
    rw [token?_of_fits fits, none (List.dropLast_sublist digits)]
  · intro error read
    rw [read]
    simp only
    rw [token?_of_fits fits, diagnostics_of_fits fits, none (List.dropLast_sublist digits), none (.refl digits)]
    exact ⟨rfl, rfl⟩

end Run

/-- The texts of the whole numbers that are read, and what becomes of a run of digits in a program text. The zeros
in front of a number do not count for its range, but for the limit of its digits: one in the range is refused if it
has too many of them, and the report tells that. -/
theorem whole_numbers (source : String) :
    (∀ text n, Field.integer? text = .ok n ↔
      ∃ digits, Whole text.toList digits n ∧ Integer.InRange n ∧ digits.length ≤ Field.digitLimit) ∧
    (∀ text digits n, Whole text.toList digits n → Integer.InRange n → Field.digitLimit < digits.length →
      Field.integer? text = .error (.tooManyDigits digits.length)) ∧
    ∀ earlier later digits behind, pieces source = earlier ++ later → textOf later = digits ++ behind →
      digits ≠ [] → Digits digits → (∀ c ∈ behind.head?, ¬c.isDigit) →
      (∀ c more, behind = '.' :: c :: more → ¬c.isDigit) →
      ∃ piece others, later = piece :: others ∧ textOf others = behind ∧
        (ofDigits digits ≤ 2147483647 → digits.length ≤ Field.digitLimit →
          piece.token? = some ⟨.number, .ofList digits, some (.integer (ofDigits digits)),
            (1 + lineFeeds (textOf earlier) : Nat)⟩ ∧
          piece.diagnostics = []) ∧
        (2147483647 < ofDigits digits → digits.length ≤ Field.digitLimit ∨
            10 < (digits.dropWhile (· == '0')).length →
          piece.token? = some ⟨.number, .ofList digits, some (.integer 0),
            (1 + lineFeeds (textOf earlier) : Nat)⟩ ∧
          piece.diagnostics = [.onLine (1 + lineFeeds (textOf earlier) : Nat)
            (FieldError.outOfRange (.ofList digits)).message]) ∧
        (Field.digitLimit < digits.length → (digits.dropWhile (· == '0')).length ≤ 10 →
          piece.token? = some ⟨.number, .ofList digits, some (.integer 0),
            (1 + lineFeeds (textOf earlier) : Nat)⟩ ∧
          piece.diagnostics = [.onLine (1 + lineFeeds (textOf earlier) : Nat)
            (FieldError.tooManyDigits digits.length).message]) := by
  refine ⟨fun text n => Field.integer?_eq_ok_iff, fun text digits n whole inRange long =>
    Field.integer?_tooManyDigits whole (Field.significant_of_inRange whole inRange) long, ?_⟩
  intro earlier later digits behind split text some_ all ends noPlace
  have whole : Whole (String.ofList digits).toList digits (ofDigits digits) := by
    rw [String.toList_ofList]
    exact .unsigned some_ all
  have inRange_iff : Integer.InRange (ofDigits digits) ↔ ofDigits digits ≤ 2147483647 := by
    unfold Integer.InRange
    omega
  obtain ⟨piece, others, first, left, taken, refused⟩ := number_of_run some_ all split text ends noPlace
  refine ⟨piece, others, first, left, ?_, ?_, ?_⟩
  · intro small short
    exact taken _ (Field.integer?_eq_ok_iff.mpr ⟨digits, whole, inRange_iff.mpr small, short⟩)
  · intro large told
    refine refused _ (Field.integer?_outOfRange whole ?_ told.symm)
    rw [inRange_iff]
    exact Nat.not_le.mpr large
  · intro long few
    exact refused _ (Field.integer?_tooManyDigits whole few long)

def sevenBehindZeros : List Char := .replicate 4300 '0' ++ ['7']

private theorem whole_sevenBehindZeros : Whole sevenBehindZeros sevenBehindZeros 7 := by
  have all : Digits sevenBehindZeros :=
    (Decimal.digits_zeros 4300).append (List.forall_mem_singleton.mpr (by decide))
  have spelled : ofDigits sevenBehindZeros = 7 := Decimal.ofDigits_zeros_append 4300 ['7']
  have whole := Whole.unsigned (List.concat_ne_nil '7' (.replicate 4300 '0')) all
  rwa [show (7 : Int) = ((7 : Nat) : Int) from rfl, ← spelled]

/-- Seven is in the range, but with so many zeros in front of it it is refused. Forty-two with two of them is a number
like any other. -/
theorem seven_is_refused :
    Whole sevenBehindZeros sevenBehindZeros 7 ∧ Integer.InRange 7 ∧
      Field.integer? (.ofList sevenBehindZeros) = .error (.tooManyDigits 4301) ∧
      ∃ piece others, pieces "0042.y" = piece :: others ∧ textOf others = ['.', 'y'] ∧
        piece.token? = some ⟨.number, "0042", some (.integer 42), 1⟩ ∧ piece.diagnostics = [] := by
  have count : sevenBehindZeros.length = 4301 := by
    rw [sevenBehindZeros, List.length_append, List.length_replicate, List.length_singleton]
  obtain ⟨_, refused, found⟩ := whole_numbers "0042.y"
  have told := refused (.ofList sevenBehindZeros) sevenBehindZeros 7
    (by rw [String.toList_ofList]; exact whole_sevenBehindZeros) (by decide) (by rw [count]; decide)
  rw [count] at told
  obtain ⟨piece, others, first, left, taken, _⟩ := found [] _ ['0', '0', '4', '2'] ['.', 'y'] rfl
    (textOf_pieces _) (by decide) (by simp [Digits]) (by simp) (by simp)
  exact ⟨whole_sevenBehindZeros, by decide, told, piece, others, first, left, taken (by decide) (by decide)⟩

end Cfpl.Source
