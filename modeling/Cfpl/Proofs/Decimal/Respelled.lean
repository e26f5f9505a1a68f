import Cfpl.Decimal.Numeral
import Cfpl.Proofs.Decimal.Decade
import Cfpl.Proofs.Decimal.Digits

/-! The text that shows a double and the text that a document holds of it denote one number. Each is written from
the shortest numeral; here the one is made from the other, as `respelled?` does it. -/

namespace Cfpl.Decimal

open Float.Model Float.Model.UnpackedFloat

variable {digits whole behind ending : List Char} {front back : Nat} {d : Decimal} {power exponent : Int}

section Digits

/-- Digits with no zero at either end. -/
structure Significant (digits : List Char) : Prop where
  some_ : digits ≠ []
  all : Digits digits
  first : digits.head? ≠ some '0'
  last : digits.getLast? ≠ some '0'

theorem significantDigits_significant (some_ : d.coefficient ≠ 0) : Significant (significantDigits d) := by
  have last := normalize_last some_
  have kept : d.normalize.coefficient ≠ 0 := fun zero => last (by rw [zero])
  have spelled := ofDigits_toDigits d.normalize.coefficient
  refine ⟨Nat.toDigits_ne_nil, digits_toDigits _, head_toDigits kept, fun zero => ?_⟩
  obtain ⟨init, parted⟩ := List.getLast?_eq_some_iff.mp zero
  unfold significantDigits at parted
  rw [parted, ofDigits_append] at spelled
  rw [← spelled] at last
  exact last (Nat.mul_mod_left _ 10)

private theorem dropZeros_of_head (first : digits.head? ≠ some '0') : digits.dropWhile (· == '0') = digits := by
  cases digits with
  | nil => rfl
  | cons c rest =>
    refine List.dropWhile_cons_of_neg fun zero => first ?_
    exact congrArg some (eq_of_beq zero)

private theorem dropZeros_padded (front : Nat) (digits : List Char) :
    (.replicate front '0' ++ digits).dropWhile (· == '0') = digits.dropWhile (· == '0') := by
  refine List.dropWhile_append_of_pos fun c member => ?_
  rw [List.eq_of_mem_replicate member]
  rfl

private theorem dropZeros_significant (significant : Significant digits) (front back : Nat) :
    (.replicate front '0' ++ (digits ++ .replicate back '0')).dropWhile (· == '0') =
      digits ++ .replicate back '0' := by
  rw [dropZeros_padded]
  refine dropZeros_of_head ?_
  rw [List.head?_append_of_ne_nil _ significant.some_]
  exact significant.first

private theorem strip_padded (significant : Significant digits) (front back : Nat) :
    strip (.replicate front '0' ++ (digits ++ .replicate back '0')) = digits := by
  have behind : digits.reverse.head? ≠ some '0' := by
    rw [List.head?_reverse]
    exact significant.last
  unfold strip
  rw [dropZeros_significant significant, List.reverse_append, List.reverse_replicate, dropZeros_padded,
    dropZeros_of_head behind, List.reverse_reverse]

end Digits

section Display

private theorem exponentText_display (n : Int) : displayLayout.exponentText n = (toString n).toList := by
  have filled : displayLayout.exponentWidth - (Nat.toDigits 10 n.natAbs).length = 0 :=
    Nat.sub_eq_zero_of_le (List.length_pos_of_ne_nil Nat.toDigits_ne_nil)
  rw [toList_toString]
  unfold Layout.exponentText
  simp only
  rw [filled]
  split <;> rfl

private theorem scientific_display (first : Char) (rest : List Char) (n : Int) :
    displayLayout.scientific (first :: rest) n =
      first :: '.' :: ((if rest.isEmpty then ['0'] else rest) ++ 'E' :: (toString n).toList) := by
  rw [← exponentText_display]
  unfold Layout.scientific
  cases rest <;> rfl

private theorem scientific_of_significant (significant : Significant digits) (n : Int) :
    Scientific (displayLayout.scientific digits n) n := by
  obtain ⟨some_, all, nonzero, last⟩ := significant
  obtain ⟨first, rest, rfl⟩ := List.exists_cons_of_ne_nil some_
  obtain ⟨digit, places⟩ := List.forall_mem_cons.mp all
  have other : first ≠ '0' := fun zero => nonzero (congrArg some zero)
  rw [scientific_display]
  cases rest with
  | nil => exact .marked digit other (List.cons_ne_nil '0' []) (digits_zeros 1) (.inl rfl) n
  | cons second rest =>
    rw [List.getLast?_cons_cons] at last
    exact .marked digit other (List.cons_ne_nil second rest) places (.inr last) n

end Display

section Parts

private theorem respelled?_of_parts (noMark : 'e' ∉ whole ++ behind) (noPoint : '.' ∉ whole)
    (point : ∀ c ∈ behind.head?, c = '.') (mark : ∀ c ∈ ending.head?, c = 'e') (ends : Ending ending power)
    (significant : Significant digits)
    (padded : whole ++ behind.drop 1 = .replicate front '0' ++ (digits ++ .replicate back '0')) :
    respelled? (whole ++ behind ++ ending) =
      some (displayLayout.scientific digits (whole.length + power - front - 1)) := by
  have atMark : (whole ++ behind ++ ending).span (· != 'e') = (whole ++ behind, ending) := by
    refine span_bounded (fun c member => ?_) fun c found => ?_
    · exact bne_iff_ne.mpr fun same => noMark (same ▸ member)
    · rw [mark c found]
      decide
  have atPoint : (whole ++ behind).span (· != '.') = (whole, behind) := by
    refine span_bounded (fun c member => ?_) fun c found => ?_
    · exact bne_iff_ne.mpr fun same => noPoint (same ▸ member)
    · rw [point c found]
      decide
  have leading : (whole ++ behind.drop 1).length - ((whole ++ behind.drop 1).dropWhile (· == '0')).length = front := by
    rw [padded, dropZeros_significant significant, List.length_append, List.length_replicate, Nat.add_sub_cancel]
  unfold respelled?
  rw [atMark]
  simp only
  rw [atPoint]
  simp only
  rw [leading, padded, strip_padded significant]
  obtain ⟨first, rest, rfl⟩ := List.exists_cons_of_ne_nil significant.some_
  rw [scientific_display, exponent?_of_ending ends]
  rfl

private theorem parts_of_plain (some_ : digits ≠ []) (exponent : Int) :
    ∃ whole fraction front back, plain digits exponent = whole ++ '.' :: fraction ∧ whole ≠ [] ∧ fraction ≠ [] ∧
      whole ++ fraction = .replicate front '0' ++ (digits ++ .replicate back '0') ∧
        (whole.length : Int) - front - 1 = exponent := by
  unfold plain
  split
  · next below =>
    refine ⟨['0'], .replicate (-exponent - 1).toNat '0' ++ digits, (-exponent - 1).toNat + 1, 0, rfl,
      List.cons_ne_nil _ _, List.append_ne_nil_of_right_ne_nil _ some_, ?_, ?_⟩
    · rw [List.replicate_zero, List.append_nil, List.replicate_succ]
      rfl
    · rw [List.length_singleton]
      omega
  · next above =>
    by_cases short : digits.length ≤ exponent.toNat + 1
    · refine ⟨digits ++ .replicate (exponent.toNat + 1 - digits.length) '0', ['0'], 0,
        exponent.toNat + 1 - digits.length + 1, ?_, List.append_ne_nil_of_left_ne_nil some_ _,
        List.cons_ne_nil _ _, ?_, ?_⟩
      · simp only
        rw [List.take_of_length_le short, List.drop_of_length_le short]
        rfl
      · rw [List.replicate_succ', List.append_assoc]
        rfl
      · rw [List.length_append, List.length_replicate]
        omega
    · refine ⟨digits.take (exponent.toNat + 1), digits.drop (exponent.toNat + 1), 0, 0, ?_, ?_, ?_, ?_, ?_⟩
      · have long : (digits.drop (exponent.toNat + 1)).isEmpty = false := by
          rw [List.isEmpty_eq_false_iff]
          exact fun none => short (List.drop_eq_nil_iff.mp none)
        simp only
        rw [long, Nat.sub_eq_zero_of_le (by omega)]
        show digits.take (exponent.toNat + 1) ++ [] ++ _ = _
        rw [List.append_nil]
        rfl
      · simpa using some_
      · exact fun none => short (List.drop_eq_nil_iff.mp none)
      · rw [List.take_append_drop, List.replicate_zero, List.append_nil]
        rfl
      · rw [List.length_take]
        omega

end Parts

section Document

private theorem digits_padded {fraction : List Char} (significant : Significant digits)
    (padded : whole ++ fraction = .replicate front '0' ++ (digits ++ .replicate back '0')) :
    Digits whole ∧ Digits fraction := by
  refine List.forall_mem_append.mp ?_
  rw [padded]
  exact (digits_zeros front).append (significant.all.append (digits_zeros back))

private theorem positional_plain (significant : Significant digits) (exponent : Int) :
    Positional (plain digits exponent) := by
  obtain ⟨whole, fraction, front, back, written, some_, someBehind, padded, -⟩ :=
    parts_of_plain significant.some_ exponent
  obtain ⟨allWhole, allBehind⟩ := digits_padded significant padded
  rw [written]
  exact .pointed some_ allWhole someBehind allBehind

private theorem respelled?_plain (significant : Significant digits) (exponent : Int) :
    respelled? (plain digits exponent) = some (displayLayout.scientific digits exponent) := by
  obtain ⟨whole, fraction, front, back, written, -, -, padded, place⟩ := parts_of_plain significant.some_ exponent
  obtain ⟨allWhole, allBehind⟩ := digits_padded significant padded
  have noMark : 'e' ∉ whole ++ '.' :: fraction := by
    simpa using ⟨allWhole.apart (by decide), allBehind.apart (by decide)⟩
  have respelled := respelled?_of_parts noMark (allWhole.apart (by decide)) (by simp) (by simp) .nothing significant
    padded
  rw [List.append_nil, Int.add_zero, place] at respelled
  rw [written]
  exact respelled

private theorem respelled?_scientific (significant : Significant digits) (exponent : Int) :
    respelled? (documentLayout.scientific digits exponent) = some (displayLayout.scientific digits exponent) := by
  have ends : Ending ('e' :: documentLayout.exponentText exponent) exponent :=
    ending_exponentText documentLayout (by decide) exponent
  obtain ⟨first, rest, rfl⟩ := List.exists_cons_of_ne_nil significant.some_
  obtain ⟨digit, places⟩ := List.forall_mem_cons.mp significant.all
  have whole : Digits [first] := List.forall_mem_singleton.mpr digit
  have respelled (behind : List Char) (noMark : 'e' ∉ behind) (point : ∀ c ∈ behind.head?, c = '.')
      (places : behind.drop 1 = rest) :
      respelled? ([first] ++ behind ++ 'e' :: documentLayout.exponentText exponent) =
        some (displayLayout.scientific (first :: rest) exponent) := by
    have padded : [first] ++ behind.drop 1 = .replicate 0 '0' ++ (first :: rest ++ .replicate 0 '0') := by
      rw [places, List.replicate_zero, List.append_nil]
      rfl
    have respelled := respelled?_of_parts (List.not_mem_append (whole.apart (by decide)) noMark)
      (whole.apart (by decide)) point (by simp) ends significant padded
    rw [List.length_singleton, show ((1 : Nat) : Int) + exponent - (0 : Nat) - 1 = exponent by omega] at respelled
    exact respelled
  cases rest with
  | nil => exact respelled [] List.not_mem_nil (by simp) rfl
  | cons second rest =>
    refine respelled ('.' :: second :: rest) ?_ (by simp) rfl
    exact List.not_mem_cons_of_ne_of_not_mem (by decide) (Digits.apart places (by decide))

private theorem respelled?_document (some_ : d.coefficient ≠ 0) :
    respelled? (documentLayout.positive d) =
      some (displayLayout.scientific (significantDigits d) (scientificExponent d)) := by
  have significant := significantDigits_significant some_
  unfold Layout.positive
  simp only
  split
  · exact respelled?_plain significant _
  · exact respelled?_scientific significant _

end Document

section Denoted

theorem Ending.unique {power other : Int} (ends : Ending ending power) (endsOther : Ending ending other) :
    power = other :=
  Option.some_inj.mp ((exponent?_of_ending ends).symm.trans (exponent?_of_ending endsOther))

theorem Numeral.unique {text : List Char} {d other : Decimal} (numeral : Numeral text d)
    (numeralOther : Numeral text other) : d = other := by
  generalize same : text = again at numeralOther
  have atPoint {whole rest : List Char} (all : Digits whole) :
      (whole ++ '.' :: rest).span Char.isDigit = (whole, '.' :: rest) := span_bounded all (by simp +decide)
  have atEnding {whole ending : List Char} {power : Int} (all : Digits whole) (ends : Ending ending power) :
      (whole ++ ending).span Char.isDigit = (whole, ending) :=
    span_bounded all fun c found => (ends.stops c found).1
  have spans := congrArg (List.span Char.isDigit) same
  cases numeral with
  | whole some_ all ends =>
    rw [atEnding all ends] at spans
    cases numeralOther with
    | whole someOther allOther endsOther =>
      rw [atEnding allOther endsOther] at spans
      cases spans
      rw [ends.unique endsOther]
    | pointed someOther allOther placesOther endsOther =>
      rw [atPoint allOther] at spans
      cases spans
      exact absurd rfl (ends.stops '.' rfl).2
  | pointed some_ all places ends =>
    rw [atPoint all] at spans
    cases numeralOther with
    | whole someOther allOther endsOther =>
      rw [atEnding allOther endsOther] at spans
      cases spans
      exact absurd rfl (endsOther.stops '.' rfl).2
    | pointed someOther allOther placesOther endsOther =>
      rw [atPoint allOther] at spans
      obtain ⟨rfl, behind⟩ := Prod.mk.inj spans
      have spansBehind := congrArg (List.span Char.isDigit) (List.cons.inj behind).2
      rw [atEnding places ends, atEnding placesOther endsOther] at spansBehind
      cases spansBehind
      rw [ends.unique endsOther]

private theorem noMinus_of_numeral {text : List Char} (numeral : Numeral ('-' :: text) d) : False := by
  obtain ⟨first, rest, same, digit⟩ := head_of_numeral numeral
  cases same
  exact absurd digit (by decide)

private theorem denotes_unsigned {text : List Char} {size : ℚ} (spells : Spells text size) (other : ℚ) :
    Denotes text other ↔ other = size := by
  obtain ⟨d, numeral, rfl⟩ := spells
  refine ⟨fun denotes => ?_, fun same => same ▸ .unsigned numeral⟩
  cases denotes with
  | unsigned again => rw [again.unique numeral]
  | minus => exact (noMinus_of_numeral numeral).elim

private theorem denotes_minus {text : List Char} {size : ℚ} (spells : Spells text size) (other : ℚ) :
    Denotes ('-' :: text) other ↔ other = -size := by
  obtain ⟨d, numeral, rfl⟩ := spells
  refine ⟨fun denotes => ?_, fun same => same ▸ .minus numeral⟩
  cases denotes with
  | unsigned again => exact (noMinus_of_numeral again).elim
  | minus again => rw [again.unique numeral]

private theorem denoted_by_both {text other : List Char} {size : ℚ} (spells : Spells text size)
    (spellsOther : Spells other size) (sign : Sign) :
    ∃ number : ℚ, |number| = |size| ∧ (∀ n, Denotes (signed sign text) n ↔ n = number) ∧
      ∀ n, Denotes (signed sign other) n ↔ n = number := by
  cases sign with
  | negative => exact ⟨-size, abs_neg size, denotes_minus spells, denotes_minus spellsOther⟩
  | positive => exact ⟨size, rfl, denotes_unsigned spells, denotes_unsigned spellsOther⟩

end Denoted

section Double

variable {x : Float} {sign : Sign} {mantissa : Nat} {positive : 0 < mantissa}

private theorem unpacked_of_finite (finite : x.isFinite) (nonzero : (x == 0.0) = false) :
    ∃ sign mantissa exponent positive, x.toModel.unpack = .finite sign mantissa exponent positive := by
  refine (cases_of_unpack x).resolve_left fun special => ?_
  have excluded : ∀ y ∈ [0.0, -0.0, infinity, infinity.neg, notANumber],
      y.isFinite = false ∨ (y == 0.0) = true := by
    decide +kernel
  rcases excluded x special with notFinite | zero
  · exact absurd (finite.symm.trans notFinite) (by decide)
  · exact absurd (nonzero.symm.trans zero) (by decide)

private theorem signed_eq (unpacked : x.toModel.unpack = .finite sign mantissa exponent positive) (text : List Char) :
    signed sign text = (if number x < 0 then ['-'] else []) ++ text := by
  cases sign with
  | negative =>
    rw [if_pos ((number_neg_iff unpacked).mpr rfl)]
    rfl
  | positive =>
    rw [if_neg fun below => nomatch (number_neg_iff unpacked).mp below]
    rfl

private theorem shortest_abs (unpacked : x.toModel.unpack = .finite sign mantissa exponent positive) :
    shortest x.abs = shortest x := by
  have unpackedAbs := unpack_abs unpacked
  have magnitudes : magnitude x.abs = magnitude x :=
    (magnitude_of_unpack unpackedAbs).2.trans (magnitude_of_unpack unpacked).2.symm
  have again : x.abs.abs = x.abs := (eq_signed_abs unpackedAbs).symm
  unfold shortest
  simp only
  rw [magnitudes, again]

private theorem display_within (low : -3 ≤ scientificExponent d) (high : scientificExponent d < 7) :
    displayLayout.positive d = plain (significantDigits d) (scientificExponent d) ∧
      documentLayout.positive d = plain (significantDigits d) (scientificExponent d) := by
  have display : (decide (-3 ≤ scientificExponent d) && decide (scientificExponent d < 7)) = true := by
    rw [decide_eq_true low, decide_eq_true high]
    rfl
  have document : (decide (-4 ≤ scientificExponent d) && decide (scientificExponent d < 16)) = true := by
    rw [decide_eq_true (by omega), decide_eq_true (by omega)]
    rfl
  exact ⟨if_pos display, if_pos document⟩

private theorem display_outside (outside : ¬(-3 ≤ scientificExponent d ∧ scientificExponent d < 7)) :
    displayLayout.positive d = displayLayout.scientific (significantDigits d) (scientificExponent d) := by
  refine if_neg fun inside => outside ?_
  rwa [Bool.and_eq_true, decide_eq_true_eq, decide_eq_true_eq] at inside

private theorem plain_iff (unpacked : x.toModel.unpack = .finite sign mantissa exponent positive) :
    (10 : ℚ) ^ (-3 : Int) ≤ |number x| ∧ |number x| < 10 ^ (7 : Int) ↔
      -3 ≤ scientificExponent (shortest x) ∧ scientificExponent (shortest x) < 7 := by
  have low : -3 ≤ scientificExponent (shortest x) ↔ _ := le_scientificExponent_iff unpacked (by decide +kernel)
  have high : 7 ≤ scientificExponent (shortest x) ↔ _ := le_scientificExponent_iff unpacked (by decide +kernel)
  rw [low, ← Int.not_le, high, not_le]

/-- What is displayed of a finite double other than zero denotes the number that its document text denotes. From a
thousandth to below ten millions it is this text. Elsewhere it is what the text is spelled anew to, in the notation
with the decimal exponent of the number. -/
theorem displayed_respells (finite : x.isFinite) (nonzero : (x == 0.0) = false) :
    ∃ sign document display denoted,
      sign = (if number x < 0 then ['-'] else []) ∧
      (documentLayout.write x.abs).toList = document ∧
      (documentLayout.write x).toList = sign ++ document ∧
      (displayLayout.write x).toList = sign ++ display ∧
      (∀ n, Denotes (sign ++ document) n ↔ n = denoted) ∧
      (∀ n, Denotes (sign ++ display) n ↔ n = denoted) ∧
      if (10 : ℚ) ^ (-3 : Int) ≤ |number x| ∧ |number x| < 10 ^ (7 : Int) then
        Positional display ∧ display = document
      else
        Scientific display (Int.log 10 |denoted|) ∧ respelled? document = some display := by
  obtain ⟨sign, mantissa, exponent, positive, unpacked⟩ := unpacked_of_finite finite nonzero
  have some_ := value_shortest_pos unpacked
  have coefficient : (shortest x).coefficient ≠ 0 := value_eq_zero_iff.not.mp some_.ne'
  have significant := significantDigits_significant coefficient
  obtain ⟨denoted, size, byDocument, byDisplay⟩ :=
    denoted_by_both (spells_positive documentLayout (by decide) (shortest x))
      (spells_positive displayLayout (by decide) (shortest x)) sign
  rw [signed_eq unpacked] at byDocument byDisplay
  refine ⟨_, documentLayout.positive (shortest x), displayLayout.positive (shortest x), denoted, rfl, ?_, ?_, ?_,
    byDocument, byDisplay, ?_⟩
  · rw [write_of_unpack documentLayout (unpack_abs unpacked), shortest_abs unpacked]
    exact String.toList_ofList
  · rw [write_of_unpack documentLayout unpacked, String.toList_ofList, signed_eq unpacked]
  · rw [write_of_unpack displayLayout unpacked, String.toList_ofList, signed_eq unpacked]
  · rw [size, abs_of_pos some_, ← scientificExponent_eq coefficient]
    split
    · next inside =>
      obtain ⟨low, high⟩ := (plain_iff unpacked).mp inside
      obtain ⟨display, document⟩ := display_within low high
      rw [display, document]
      exact ⟨positional_plain significant _, rfl⟩
    · next outside =>
      rw [display_outside ((plain_iff unpacked).not.mp outside)]
      exact ⟨scientific_of_significant significant _, respelled?_document coefficient⟩

theorem small_number_respells :
    ∃ denoted : ℚ, (∀ n, Denotes ['-', '2', '.', '5', 'e', '-', '0', '7'] n ↔ n = denoted) ∧
      (∀ n, Denotes ['-', '2', '.', '5', 'E', '-', '7'] n ↔ n = denoted) ∧
        Scientific ['2', '.', '5', 'E', '-', '7'] (Int.log 10 |denoted|) := by
  obtain ⟨sign, document, display, denoted, below, -, written, displayed, byDocument, byDisplay, form⟩ :=
    @displayed_respells (-2.5e-7) (by decide +kernel) (by decide +kernel)
  have outside : ¬((10 : ℚ) ^ (-3 : Int) ≤ |number (-2.5e-7)| ∧ |number (-2.5e-7)| < 10 ^ (7 : Int)) := by
    decide +kernel
  have negative : number (-2.5e-7) < 0 := by decide +kernel
  have knownDocument : (documentLayout.write (-2.5e-7)).toList = ['-', '2', '.', '5', 'e', '-', '0', '7'] := by
    decide +kernel
  have knownDisplay : (displayLayout.write (-2.5e-7)).toList = ['-', '2', '.', '5', 'E', '-', '7'] := by
    decide +kernel
  rw [if_pos negative] at below
  rw [if_neg outside] at form
  rw [← written, knownDocument] at byDocument
  rw [← displayed, knownDisplay] at byDisplay
  rw [below, knownDisplay] at displayed
  obtain rfl := (List.cons.inj displayed).2
  exact ⟨denoted, byDocument, byDisplay, form.1⟩

end Double

end Cfpl.Decimal
