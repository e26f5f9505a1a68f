import Cfpl.Json.Reader
import Cfpl.Proofs.Decimal.Respelled
import Cfpl.Proofs.Decimal.Written

/-! Numbers are read as they are written, up to a mark that may stand behind a value. A document writes no numeral that
has a zero in front of another digit, or a point without digits behind it. -/

namespace Cfpl.Json

open Decimal

/-- What may stand behind a value: nothing, or what separates it from others. -/
def Stops (rest : List Char) : Prop := ∀ c ∈ rest.head?, c = ',' ∨ c = '\n'

structure Leading (whole : List Char) : Prop where
  some_ : whole ≠ []
  all : Digits whole
  bare : whole.head? = some '0' → whole = ['0']

inductive Places : List Char → List Char → Prop
  | nothing : Places [] []
  | pointed {fraction : List Char} (some_ : fraction ≠ []) (all : Digits fraction) :
    Places ('.' :: fraction) fraction

variable {whole point fraction ending behind rest : List Char} {power : Int}

section Parts

private theorem Stops.apart (stops : Stops rest) {c : Char} (found : c ∈ rest.head?) :
    ¬c.isDigit ∧ c ≠ '.' ∧ c ≠ 'e' ∧ c ≠ 'E' := by
  rcases stops c found with rfl | rfl <;> decide

private theorem wholePart_of_leading (leading : Leading whole) (stops : ∀ c ∈ behind.head?, ¬c.isDigit) :
    wholePart (whole ++ behind) = (whole, behind) := by
  unfold wholePart
  split
  · next rest starts =>
    obtain ⟨first, others, rfl⟩ := List.exists_cons_of_ne_nil leading.some_
    obtain ⟨rfl, later⟩ := List.cons.inj starts
    obtain ⟨-, rfl⟩ := List.cons.inj (leading.bare rfl)
    rw [← later]
    rfl
  · exact span_bounded leading.all stops

private theorem fractionPart_of_places (places : Places point fraction)
    (stops : ∀ c ∈ behind.head?, ¬c.isDigit ∧ c ≠ '.') :
    fractionPart (point ++ behind) = if point.isEmpty then none else some (fraction, behind) := by
  cases places with
  | nothing =>
    unfold fractionPart
    split
    · next starts =>
      rw [List.nil_append] at starts
      exact absurd rfl (stops '.' (by rw [starts]; rfl)).2
    · rfl
  | pointed some_ all =>
    have digits := span_bounded all fun c found => (stops c found).1
    simp [fractionPart, -List.span_eq_takeWhile_dropWhile, digits, some_]

private theorem exponentPart_of_ending (ends : Ending ending power) (stops : Stops rest) :
    exponentPart (ending ++ rest) = if ending.isEmpty then none else some (power, rest) := by
  have spans {digits : List Char} (all : Digits digits) : (digits ++ rest).span Char.isDigit = (digits, rest) :=
    span_bounded all fun c found => (stops.apart found).1
  cases ends with
  | nothing =>
    cases rest with
    | nil => rfl
    | cons c rest =>
      obtain ⟨-, -, small, capital⟩ := stops.apart (c := c) rfl
      simp [exponentPart, small, capital]
  | downward marked some_ all =>
    simp [exponentPart, -List.span_eq_takeWhile_dropWhile, spans all, some_, List.mem_pair.mp marked]
  | @upward mark sign digits marked signed some_ all =>
    rcases List.mem_pair.mp signed with rfl | rfl
    · obtain ⟨first, others, rfl⟩ := List.exists_cons_of_ne_nil some_
      have digit := all first (.head _)
      have noMinus : first ≠ '-' := fun same => absurd (same ▸ digit) (by decide)
      have noPlus : first ≠ '+' := fun same => absurd (same ▸ digit) (by decide)
      have unsigned := spans all
      rw [List.cons_append] at unsigned
      simp [exponentPart, -List.span_eq_takeWhile_dropWhile, noMinus, noPlus, unsigned, List.mem_pair.mp marked]
    · simp [exponentPart, -List.span_eq_takeWhile_dropWhile, spans all, some_, List.mem_pair.mp marked]

end Parts

section Numerals

variable (leading : Leading whole) (stops : Stops rest)
include leading stops

private theorem number?_whole (negative : Bool) :
    number? negative (whole ++ rest) = some ((wholeNumber negative whole).map fun value => (value, rest)) := by
  have noFraction := fractionPart_of_places .nothing fun c found => ⟨(stops.apart found).1, (stops.apart found).2.1⟩
  have noExponent := exponentPart_of_ending .nothing stops
  simp only [List.nil_append, List.isEmpty_nil, if_true] at noFraction noExponent
  simp [number?, wholePart_of_leading leading fun c found => (stops.apart found).1, leading.some_, noFraction,
    noExponent]

private theorem number?_parts (negative : Bool) (places : Places point fraction) (ends : Ending ending power)
    (some_ : point ≠ [] ∨ ending ≠ []) :
    number? negative (whole ++ (point ++ (ending ++ rest))) =
      some (.ok (pointedNumber negative (ofParts whole fraction power), rest)) := by
  have endStops : ∀ c ∈ (ending ++ rest).head?, ¬c.isDigit ∧ c ≠ '.' := by
    cases ending with
    | nil => exact fun c found => ⟨(stops.apart found).1, (stops.apart found).2.1⟩
    | cons mark ending => exact fun c found => ends.stops c found
  have pointStops : ∀ c ∈ (point ++ (ending ++ rest)).head?, ¬c.isDigit := by
    cases places with
    | nothing => exact fun c found => (endStops c found).1
    | pointed => simp +decide
  have found := exponentPart_of_ending ends stops
  have powerFound : ((exponentPart (ending ++ rest)).map (·.1)).getD 0 = power := by
    rw [found]
    cases ends <;> rfl
  have restFound : ((exponentPart (ending ++ rest)).map (·.2)).getD (ending ++ rest) = rest := by
    rw [found]
    cases ending <;> rfl
  unfold number?
  rw [wholePart_of_leading leading pointStops]
  simp only [List.isEmpty_eq_false_iff.mpr leading.some_]
  rw [fractionPart_of_places places endStops]
  cases places with
  | nothing =>
    have marked : ending ≠ [] := some_.resolve_left fun point => point rfl
    simp [found, marked]
  | pointed someBehind all => simp [powerFound, restFound]

end Numerals

section Written

variable {digits : List Char} {d : Decimal} {x : Float}

/-- A numeral in the parts that tell it from a whole number. -/
private inductive Pointed : List Char → Decimal → Prop
  | parts {whole point fraction ending : List Char} {power : Int} (leading : Leading whole)
    (places : Places point fraction) (ends : Ending ending power) (some_ : point ≠ [] ∨ ending ≠ []) :
    Pointed (whole ++ (point ++ ending)) (ofParts whole fraction power)

private theorem Pointed.numeral {text : List Char} (pointed : Pointed text d) : Numeral text d := by
  cases pointed with
  | parts leading places ends =>
    cases places with
    | nothing => exact .whole leading.some_ leading.all ends
    | pointed some_ all => exact .pointed leading.some_ leading.all all ends

private theorem Leading.ofHead (some_ : whole ≠ []) (all : Digits whole) (head : whole.head? ≠ some '0') :
    Leading whole :=
  ⟨some_, all, fun zero => absurd zero head⟩

private theorem leading_toDigits (n : Nat) : Leading (Nat.toDigits 10 n) := by
  by_cases zero : n = 0
  · subst zero
    exact ⟨by decide, digits_toDigits 0, fun _ => rfl⟩
  · exact .ofHead Nat.toDigits_ne_nil (digits_toDigits n) (head_toDigits zero)

private theorem pointed_plain (significant : Significant digits) (exponent : Int) :
    ∃ d, Pointed (plain digits exponent) d := by
  have pointed {whole fraction : List Char} (leading : Leading whole) (some_ : fraction ≠ [])
      (all : Digits fraction) :
      ∃ d, Pointed (whole ++ '.' :: fraction) d := by
    have parts := Pointed.parts leading (.pointed some_ all) .nothing (.inl (List.cons_ne_nil _ _))
    rw [List.append_nil] at parts
    exact ⟨_, parts⟩
  unfold plain
  split
  · have zero : Leading ['0'] := ⟨by decide, digits_zeros 1, fun _ => rfl⟩
    exact pointed zero (List.append_ne_nil_of_right_ne_nil _ significant.some_)
      ((digits_zeros _).append significant.all)
  · obtain ⟨first, others, rfl⟩ := List.exists_cons_of_ne_nil significant.some_
    obtain ⟨digit, all⟩ := List.forall_mem_cons.mp significant.all
    refine pointed (.ofHead (by simp) ?_ (by simpa using significant.first)) ?_ ?_
    · have taken : Digits (others.take exponent.toNat) := fun c member => all c (List.mem_of_mem_take member)
      exact Digits.append (List.forall_mem_cons.mpr ⟨digit, taken⟩) (digits_zeros _)
    · split
      · exact List.cons_ne_nil _ _
      · next some_ => simpa using some_
    · split
      · exact digits_zeros 1
      · exact fun c member => all c (List.mem_of_mem_drop member)

private theorem pointed_scientific (significant : Significant digits) (exponent : Int) :
    ∃ d, Pointed (documentLayout.scientific digits exponent) d := by
  have ends : Ending ('e' :: documentLayout.exponentText exponent) exponent :=
    ending_exponentText documentLayout (by decide) exponent
  obtain ⟨first, others, rfl⟩ := List.exists_cons_of_ne_nil significant.some_
  obtain ⟨digit, all⟩ := List.forall_mem_cons.mp significant.all
  have leading : Leading [first] :=
    .ofHead (List.cons_ne_nil _ _) (List.forall_mem_singleton.mpr digit) significant.first
  cases others with
  | nil => exact ⟨_, .parts leading .nothing ends (.inr (List.cons_ne_nil _ _))⟩
  | cons second others =>
    exact ⟨_, .parts leading (.pointed (List.cons_ne_nil _ _) all) ends (.inl (List.cons_ne_nil _ _))⟩

private theorem pointed_positive (some_ : d.coefficient ≠ 0) :
    ∃ other, Pointed (documentLayout.positive d) other ∧ other.value = d.value := by
  have pointed : ∃ other, Pointed (documentLayout.positive d) other := by
    have significant := significantDigits_significant some_
    unfold Layout.positive
    simp only
    split
    · exact pointed_plain significant _
    · exact pointed_scientific significant _
  obtain ⟨other, pointed⟩ := pointed
  obtain ⟨again, numeral, same⟩ := spells_positive documentLayout (by decide) d
  rw [← pointed.numeral.unique numeral] at same
  exact ⟨other, pointed, same⟩

end Written

section Values

open Float.Model.UnpackedFloat (Sign)

variable {x : Float} {text : List Char} {d : Decimal} (stops : Stops rest) (depth : Nat)

private theorem readValue_of_digit {first : Char} (digit : first.isDigit) (text : List Char) :
    readValue (depth + 1) (first :: text) =
      (number? false (first :: text)).getD (orMalformed (word? (first :: text))) := by
  rw [readValue]
  all_goals
    intro _ starts
    cases starts
    cases digit

private theorem wholeNumber_toDigits {n : Nat} (short : n < 10 ^ Field.digitLimit) (negative : Bool) :
    wholeNumber negative (Nat.toDigits 10 n) = .ok (.int (if negative then -n else n)) := by
  have length : (Nat.toDigits 10 n).length ≤ Field.digitLimit :=
    (Nat.length_toDigits_le_iff (by decide) (by decide)).mpr short
  unfold wholeNumber
  simp only
  rw [if_neg (Nat.not_lt.mpr length), ofDigits_toDigits]

include stops

theorem readValue_int {n : Int} (short : n.natAbs < 10 ^ Field.digitLimit) :
    readValue (depth + 1) ((toString n).toList ++ rest) = .ok (.int n, rest) := by
  have leading := leading_toDigits n.natAbs
  rw [toList_toString]
  split
  · next below =>
    show (number? true (Nat.toDigits 10 n.natAbs ++ rest)).getD _ = _
    rw [number?_whole leading stops, wholeNumber_toDigits short]
    simp [Except.map, Int.ofNat_natAbs_of_nonpos (Int.le_of_lt below)]
  · next above =>
    have unsigned := number?_whole leading stops false
    rw [wholeNumber_toDigits short] at unsigned
    obtain ⟨first, others, parted⟩ := List.exists_cons_of_ne_nil leading.some_
    have digit := leading.all first (by rw [parted]; exact .head _)
    rw [parted, List.cons_append] at unsigned ⊢
    rw [readValue_of_digit depth digit, unsigned]
    simp [Except.map, Int.natAbs_of_nonneg (Int.not_lt.mp above)]

private theorem readValue_signed (pointed : Pointed text d) (sign : Sign) :
    readValue (depth + 1) (signed sign text ++ rest) =
      .ok (.float (match sign with
        | .negative => d.toFloat.neg
        | .positive => d.toFloat), rest) := by
  have read (negative : Bool) :
      number? negative (text ++ rest) = some (.ok (pointedNumber negative d, rest)) := by
    cases pointed with
    | parts leading places ends some_ =>
      rw [List.append_assoc, List.append_assoc]
      exact number?_parts leading stops negative places ends some_
  cases sign with
  | negative =>
    show (number? true (text ++ rest)).getD _ = _
    rw [read]
    rfl
  | positive =>
    obtain ⟨first, others, rfl, digit⟩ := head_of_numeral pointed.numeral
    have unsigned := read false
    rw [List.cons_append] at unsigned
    show readValue (depth + 1) (first :: (others ++ rest)) = _
    rw [readValue_of_digit depth digit, unsigned]
    rfl

private theorem readValue_zero (sign : Sign) :
    readValue (depth + 1) (signed sign ['0', '.', '0'] ++ rest) =
      .ok (.float (match sign with
        | .negative => -0.0
        | .positive => 0.0), rest) := by
  have zero : Leading ['0'] := ⟨by decide, digits_zeros 1, fun _ => rfl⟩
  have pointed : Pointed ['0', '.', '0'] ⟨0, -1⟩ :=
    .parts zero (.pointed (List.cons_ne_nil _ _) (digits_zeros 1)) .nothing (.inl (List.cons_ne_nil _ _))
  have none : toFloat ⟨0, -1⟩ = 0.0 := by decide +kernel
  rw [readValue_signed stops depth pointed sign, none]
  rfl

theorem readValue_float (finite : x.isFinite) :
    readValue (depth + 1) ((documentLayout.write x).toList ++ rest) = .ok (.float x, rest) := by
  rcases cases_of_unpack x with special | ⟨sign, mantissa, exponent, positive, unpacked⟩
  · have excluded : ∀ y ∈ [0.0, -0.0, infinity, infinity.neg, notANumber], y.isFinite →
        y = 0.0 ∧ (documentLayout.write y).toList = ['0', '.', '0'] ∨
          y = -0.0 ∧ (documentLayout.write y).toList = ['-', '0', '.', '0'] := by
      decide +kernel
    rcases excluded x special finite with ⟨rfl, written⟩ | ⟨rfl, written⟩
    · rw [written]
      exact readValue_zero stops depth .positive
    · rw [written]
      exact readValue_zero stops depth .negative
  · have coefficient : (shortest x).coefficient ≠ 0 := value_eq_zero_iff.not.mp (value_shortest_pos unpacked).ne'
    obtain ⟨d, pointed, same⟩ := pointed_positive coefficient
    have known := eq_signed_abs unpacked
    rw [write_of_unpack documentLayout unpacked, String.toList_ofList, readValue_signed stops depth pointed sign,
      toFloat_congr same, toFloat_shortest unpacked]
    cases sign <;> exact congrArg (fun x => Except.ok (Json.float x, rest)) known.symm

end Values

end Cfpl.Json
