import Cfpl.Decimal
import Cfpl.Decimal.Numeral
import Cfpl.Proofs.Decimal.Normal
import Cfpl.Value.Basic
import Mathlib.Data.List.Basic
import Mathlib.Data.List.TakeDrop

/-! The layouts write numerals of the number that is laid out, and a numeral is read as the double of the number
that it spells. So what is written may lose the point and the zero that it ends in. -/

namespace Cfpl.Decimal

variable {text whole fraction digits ending : List Char} {d : Decimal} {power exponent : Int}

section Digits

theorem ofDigits_append (front back : List Char) :
    ofDigits (front ++ back) = ofDigits front * 10 ^ back.length + ofDigits back := by
  have moved : Nat.ofDigitChars 10 back (ofDigits front) = 10 ^ back.length * ofDigits front + ofDigits back :=
    Nat.ofDigitChars_eq_ofDigitChars_zero
  rw [Nat.mul_comm, ← moved]
  exact Nat.ofDigitChars_append 0

private theorem ofDigits_zeros (count : Nat) : ofDigits (.replicate count '0') = 0 :=
  Nat.ofDigitChars_replicate_zero

theorem ofDigits_zeros_append (count : Nat) (digits : List Char) :
    ofDigits (.replicate count '0' ++ digits) = ofDigits digits := by
  rw [ofDigits_append, ofDigits_zeros, Nat.zero_mul, Nat.zero_add]

private theorem ofDigits_append_zeros (digits : List Char) (count : Nat) :
    ofDigits (digits ++ .replicate count '0') = ofDigits digits * 10 ^ count := by
  rw [ofDigits_append, ofDigits_zeros, List.length_replicate, Nat.add_zero]

theorem ofDigits_toDigits (n : Nat) : ofDigits (Nat.toDigits 10 n) = n := Nat.ofDigitChars_ten_toDigits

theorem digits_toDigits (n : Nat) : Digits (Nat.toDigits 10 n) :=
  fun _ member => Nat.isDigit_of_mem_toDigits (by decide) (by decide) member

theorem digits_zeros (count : Nat) : Digits (.replicate count '0') := by
  intro c member
  rw [List.eq_of_mem_replicate member]
  rfl

theorem Digits.append (all : Digits whole) (others : Digits fraction) : Digits (whole ++ fraction) :=
  List.forall_mem_append.mpr ⟨all, others⟩

theorem Digits.apart {c : Char} (all : Digits digits) (other : ¬c.isDigit) : c ∉ digits :=
  fun member => other (all c member)

private theorem value_ofParts (whole fraction : List Char) (power : Int) :
    (ofParts whole fraction power).value = ofDigits (whole ++ fraction) * 10 ^ (power - fraction.length) := rfl

private theorem value_zeroFraction (whole : List Char) (power : Int) :
    (ofParts whole ['0'] power).value = ofDigits whole * 10 ^ power := by
  have moved : ofDigits (whole ++ ['0']) = ofDigits whole * 10 ^ 1 := ofDigits_append_zeros whole 1
  rw [value_ofParts, moved, List.length_singleton, Nat.cast_one, zpow_sub_one₀ (by decide)]
  push_cast
  ring

private theorem value_noFraction (whole : List Char) (power : Int) :
    (ofParts whole [] power).value = ofDigits whole * 10 ^ power := by
  rw [value_ofParts, List.append_nil, List.length_nil, Nat.cast_zero, Int.sub_zero]

end Digits

section Reading

theorem span_bounded {p : Char → Bool} {content behind : List Char} (passes : ∀ c ∈ content, p c)
    (stops : ∀ c ∈ behind.head?, ¬p c) : (content ++ behind).span p = (content, behind) := by
  rw [List.span_eq_takeWhile_dropWhile, List.takeWhile_append_of_pos passes, List.dropWhile_append_of_pos passes]
  cases behind with
  | nil => simp
  | cons mark more =>
    have stop := stops mark rfl
    rw [List.takeWhile_cons_of_neg stop, List.dropWhile_cons_of_neg stop, List.append_nil]

theorem exponent?_of_ending (ends : Ending ending power) : exponent? ending = some power := by
  have known {mark : Char} {digits : List Char} (marked : mark ∈ ['e', 'E']) (some_ : digits ≠ [])
      (all : Digits digits) :
      ((mark == 'e' || mark == 'E') && !digits.isEmpty && digits.all Char.isDigit) = true := by
    rw [List.isEmpty_eq_false_iff.mpr some_, List.all_eq_true.mpr all]
    rcases List.mem_pair.mp marked with rfl | rfl <;> rfl
  cases ends with
  | nothing => rfl
  | downward marked some_ all => exact if_pos (known marked some_ all)
  | @upward mark sign digits marked signed some_ all =>
    rcases List.mem_pair.mp signed with rfl | rfl
    · unfold exponent?
      simp only [List.nil_append]
      split
      · exact absurd (all '-' (.head _)) (by decide)
      · exact absurd (all '+' (.head _)) (by decide)
      · exact if_pos (known marked some_ all)
    · exact if_pos (known marked some_ all)

theorem Ending.stops (ends : Ending ending power) : ∀ c ∈ ending.head?, ¬c.isDigit ∧ c ≠ '.' := by
  cases ends with
  | nothing => simp
  | upward marked | downward marked =>
    intro c first
    cases first
    rcases List.mem_pair.mp marked with rfl | rfl <;> decide

theorem Ending.noPoint (ends : Ending ending power) : '.' ∉ ending := by
  cases ends with
  | nothing => exact List.not_mem_nil
  | upward marked signed some_ all =>
    rcases List.mem_pair.mp marked with rfl | rfl <;> rcases List.mem_pair.mp signed with rfl | rfl <;>
      simpa using all.apart (by decide)
  | downward marked some_ all =>
    rcases List.mem_pair.mp marked with rfl | rfl <;> simpa using all.apart (by decide)

private theorem toLower_of_isDigit {c : Char} (digit : c.isDigit) : c.toLower = c := by
  refine dif_neg fun upper => ?_
  have above : 65 ≤ c.toNat := UInt32.le_iff_toNat_le.mp upper.1
  have below : c.toNat ≤ 57 := (Char.isDigit_iff_toNat.mp digit).2
  omega

private theorem word_apart {first : Char} {rest : List Char} (digit : first.isDigit) {word : String}
    (apart : word.toList.head?.any Char.isDigit = false) :
    (String.ofList ((first :: rest).map Char.toLower) == word) = false := by
  refine beq_eq_false_iff_ne.mpr fun same => ?_
  have spelled := congrArg (·.toList.head?) same
  simp only [String.toList_ofList, List.map_cons, List.head?_cons, toLower_of_isDigit digit] at spelled
  rw [← spelled, Option.any_some, digit] at apart
  cases apart

private theorem unsigned?_of_digit {first : Char} {rest : List Char} (digit : first.isDigit) :
    unsigned? (first :: rest) =
      (let (whole, behind) := (first :: rest).span Char.isDigit
      let (fraction, ending) := match behind with
        | '.' :: behind => behind.span Char.isDigit
        | behind => ([], behind)
      if whole.isEmpty && fraction.isEmpty then none
      else (exponent? ending).map fun power => (ofParts whole fraction power).toFloat) := by
  unfold unsigned?
  simp only
  rw [word_apart digit (by decide), word_apart digit (by decide), word_apart digit (by decide)]
  rfl

private theorem unsigned?_of_numeral (numeral : Numeral text d) : unsigned? text = some d.toFloat := by
  cases numeral with
  | @whole whole ending power some_ all ends =>
    obtain ⟨first, rest, rfl⟩ := List.exists_cons_of_ne_nil some_
    rw [List.cons_append, unsigned?_of_digit (all first (.head _)), ← List.cons_append,
      span_bounded all fun c found => (ends.stops c found).1]
    simp only
    split
    · exact absurd rfl (ends.stops '.' rfl).2
    · simp only
      rw [exponent?_of_ending ends]
      rfl
  | @pointed whole fraction ending power some_ all places ends =>
    obtain ⟨first, rest, rfl⟩ := List.exists_cons_of_ne_nil some_
    rw [List.cons_append, unsigned?_of_digit (all first (.head _)), ← List.cons_append,
      span_bounded all (by simp +decide)]
    simp only
    rw [span_bounded places fun c found => (ends.stops c found).1]
    simp only
    rw [exponent?_of_ending ends]
    rfl

def Plain (c : Char) : Prop := c.toNat < 0x80 ∧ ¬Text.isBlank c ∧ c ≠ '_'

private theorem plain_of_isDigit {c : Char} (digit : c.isDigit) : Plain c := by
  have bounds : 48 ≤ c.toNat ∧ c.toNat ≤ 57 := Char.isDigit_iff_toNat.mp digit
  have apart (other : Char) (mark : ¬other.isDigit) : c ≠ other := fun same => mark (same ▸ digit)
  refine ⟨by omega, ?_, apart '_' (by decide)⟩
  unfold Text.isBlank
  simp only [Bool.or_eq_true, Bool.and_eq_true, decide_eq_true_eq, beq_iff_eq, apart ' ' (by decide), false_or]
  omega

theorem Digits.plain (all : Digits digits) : ∀ c ∈ digits, Plain c :=
  fun c member => plain_of_isDigit (all c member)

private theorem plain_of_ending (ends : Ending ending power) : ∀ c ∈ ending, Plain c := by
  have known (c : Char) (marked : c ∈ ['e', 'E', '+', '-']) : Plain c := by
    unfold Plain
    simp only [List.mem_cons, List.not_mem_nil, or_false] at marked
    rcases marked with rfl | rfl | rfl | rfl <;> decide
  cases ends with
  | nothing => exact List.forall_mem_nil _
  | @upward mark sign digits marked signed some_ all =>
    have plainSign : ∀ c ∈ sign, Plain c := by
      rcases List.mem_pair.mp signed with rfl | rfl
      · exact List.forall_mem_nil _
      · exact List.forall_mem_singleton.mpr (known '+' (by decide))
    refine List.forall_mem_cons.mpr ⟨known mark ?_, List.forall_mem_append.mpr ⟨plainSign, all.plain⟩⟩
    exact List.mem_append_left ['+', '-'] marked
  | @downward mark digits marked some_ all =>
    refine List.forall_mem_cons.mpr ⟨known mark ?_, List.forall_mem_cons.mpr ⟨known '-' (by decide), all.plain⟩⟩
    exact List.mem_append_left ['+', '-'] marked

private theorem plain_of_numeral (numeral : Numeral text d) : ∀ c ∈ text, Plain c := by
  cases numeral with
  | whole some_ all ends => exact List.forall_mem_append.mpr ⟨all.plain, plain_of_ending ends⟩
  | pointed some_ all places ends =>
    refine List.forall_mem_append.mpr ⟨all.plain, List.forall_mem_cons.mpr ⟨?_, ?_⟩⟩
    · unfold Plain; decide
    · exact List.forall_mem_append.mpr ⟨places.plain, plain_of_ending ends⟩

private theorem dropBlanks_of_plain (plain : ∀ c ∈ text, Plain c) : text.dropWhile Text.isBlank = text := by
  cases text with
  | nil => rfl
  | cons c text => exact List.dropWhile_cons_of_neg (plain c (.head _)).2.1

private theorem trimBlanks_of_plain (plain : ∀ c ∈ text, Plain c) : trimBlanks text = text := by
  have behind : ∀ c ∈ text.reverse, Plain c := fun c member => plain c (List.mem_reverse.mp member)
  unfold trimBlanks
  rw [dropBlanks_of_plain plain, dropBlanks_of_plain behind, List.reverse_reverse]

private theorem mapM_of_plain (plain : ∀ c ∈ text, Plain c) : text.mapM plainChar? = some text := by
  induction text with
  | nil => rfl
  | cons c text ih =>
    obtain ⟨⟨short, noBlank, _⟩, others⟩ := List.forall_mem_cons.mp plain
    have same : plainChar? c = some c := by
      unfold plainChar?
      rw [if_neg noBlank, if_pos short]
    rw [List.mapM_cons, same, ih others]
    rfl

private theorem withoutJoints?_of_plain (plain : ∀ c ∈ text, Plain c) (before : Bool) :
    withoutJoints? before text = some text := by
  induction text generalizing before with
  | nil => rfl
  | cons c text ih =>
    obtain ⟨⟨_, _, noJoint⟩, others⟩ := List.forall_mem_cons.mp plain
    rw [withoutJoints?, ih others]
    · rfl
    · exact noJoint

private theorem read?_of_plain (plain : ∀ c ∈ text, Plain c) : read? (.ofList text) = signed? text := by
  unfold read?
  rw [String.toList_ofList, trimBlanks_of_plain plain, mapM_of_plain plain]
  show ((withoutJoints? false text).bind signed?) = _
  rw [withoutJoints?_of_plain plain]
  rfl

theorem head_of_numeral (numeral : Numeral text d) : ∃ first rest, text = first :: rest ∧ first.isDigit := by
  cases numeral with
  | whole some_ all | pointed some_ all =>
    obtain ⟨first, rest, rfl⟩ := List.exists_cons_of_ne_nil some_
    exact ⟨first, _, rfl, all first (.head _)⟩

theorem read?_of_numeral (numeral : Numeral text d) :
    read? (.ofList text) = some d.toFloat ∧ read? (.ofList ('-' :: text)) = some d.toFloat.neg := by
  have plain := plain_of_numeral numeral
  have minus : Plain '-' := by unfold Plain; decide
  obtain ⟨first, rest, rfl, digit⟩ := head_of_numeral numeral
  rw [read?_of_plain plain, read?_of_plain (List.forall_mem_cons.mpr ⟨minus, plain⟩)]
  have unsigned := unsigned?_of_numeral numeral
  refine ⟨?_, ?_⟩
  · unfold signed?
    split
    · next same => exact absurd digit (by cases same; decide)
    · next same => exact absurd digit (by cases same; decide)
    · exact unsigned
  · show (unsigned? (first :: rest)).map Float.neg = _
    rw [unsigned]
    rfl

end Reading

section Writing

def Spells (text : List Char) (value : ℚ) : Prop := ∃ d, Numeral text d ∧ d.value = value

private theorem spells_pointed (some_ : whole ≠ []) (all : Digits whole) (places : Digits fraction) :
    Spells (whole ++ '.' :: fraction) (ofParts whole fraction 0).value := by
  have numeral := Numeral.pointed some_ all places .nothing
  rw [List.append_nil] at numeral
  exact ⟨_, numeral, rfl⟩

variable (some_ : digits ≠ []) (all : Digits digits)
include some_ all

omit some_ in
private theorem spells_below (below : exponent < 0) :
    Spells ('0' :: '.' :: (.replicate (-exponent - 1).toNat '0' ++ digits))
      (ofDigits digits * 10 ^ (exponent + 1 - digits.length)) := by
  have places := (digits_zeros (-exponent - 1).toNat).append all
  have spells := spells_pointed (List.cons_ne_nil '0' []) (digits_zeros 1) places
  have front : ofDigits (['0'] ++ (.replicate (-exponent - 1).toNat '0' ++ digits)) = ofDigits digits :=
    (ofDigits_zeros_append 1 _).trans (ofDigits_zeros_append _ digits)
  have place : 0 - ((List.replicate (-exponent - 1).toNat '0' ++ digits).length : Int) =
      exponent + 1 - digits.length := by
    rw [List.length_append, List.length_replicate]
    omega
  rw [value_ofParts, place] at spells
  rw [← front]
  exact spells

private theorem spells_above {missing : Nat} (place : exponent + 1 - digits.length = missing) :
    Spells (digits ++ .replicate missing '0' ++ ['.', '0'])
      (ofDigits digits * 10 ^ (exponent + 1 - digits.length)) := by
  have some_ : digits ++ .replicate missing '0' ≠ [] := List.append_ne_nil_of_left_ne_nil some_ _
  have spells := spells_pointed some_ (all.append (digits_zeros missing)) (digits_zeros 1)
  rw [List.replicate_one, value_zeroFraction, ofDigits_append_zeros, zpow_zero, mul_one] at spells
  rw [place, zpow_natCast]
  exact_mod_cast spells

private theorem spells_plain (exponent : Int) :
    Spells (plain digits exponent) (ofDigits digits * 10 ^ (exponent + 1 - digits.length)) := by
  unfold plain
  split
  · next below => exact spells_below all below
  · next above =>
    show Spells (digits.take (exponent.toNat + 1) ++ .replicate (exponent.toNat + 1 - digits.length) '0' ++
      '.' :: (if (digits.drop (exponent.toNat + 1)).isEmpty then ['0'] else digits.drop (exponent.toNat + 1))) _
    by_cases short : digits.length ≤ exponent.toNat + 1
    · rw [List.take_of_length_le short, List.drop_of_length_le short]
      exact spells_above some_ all (by omega)
    · have long : (digits.drop (exponent.toNat + 1)).isEmpty = false := by
        rw [List.isEmpty_eq_false_iff]
        exact fun none => short (List.drop_eq_nil_iff.mp none)
      have front : Digits (digits.take (exponent.toNat + 1)) := fun c member => all c (List.mem_of_mem_take member)
      have back : Digits (digits.drop (exponent.toNat + 1)) := fun c member => all c (List.mem_of_mem_drop member)
      have spells := spells_pointed (by simpa using some_) front back
      have place : 0 - ((digits.drop (exponent.toNat + 1)).length : Int) = exponent + 1 - digits.length := by
        rw [List.length_drop]
        omega
      rw [value_ofParts, List.take_append_drop, place] at spells
      rw [long, Nat.sub_eq_zero_of_le (by omega), List.replicate_zero, List.append_nil]
      exact spells

omit some_ all in
theorem ending_exponentText (layout : Layout) (marked : layout.mark ∈ ['e', 'E']) (exponent : Int) :
    Ending (layout.mark :: layout.exponentText exponent) exponent := by
  show Ending (layout.mark :: ((if exponent < 0 then ['-'] else if layout.plusSign then ['+'] else []) ++
    .replicate (layout.exponentWidth - (Nat.toDigits 10 exponent.natAbs).length) '0' ++
      Nat.toDigits 10 exponent.natAbs)) exponent
  generalize layout.exponentWidth - _ = missing
  have some_ : .replicate missing '0' ++ Nat.toDigits 10 exponent.natAbs ≠ [] :=
    List.append_ne_nil_of_right_ne_nil _ Nat.toDigits_ne_nil
  have all := (digits_zeros missing).append (digits_toDigits exponent.natAbs)
  have size : ofDigits (.replicate missing '0' ++ Nat.toDigits 10 exponent.natAbs) = exponent.natAbs := by
    rw [ofDigits_zeros_append, ofDigits_toDigits]
  rw [List.append_assoc]
  split
  · next below =>
    have ends := Ending.downward marked some_ all
    rwa [size, show -(exponent.natAbs : Int) = exponent by omega] at ends
  · next above =>
    have ends (sign : List Char) (signed : sign ∈ [[], ['+']]) := Ending.upward marked signed some_ all
    rw [size, show (exponent.natAbs : Int) = exponent by omega] at ends
    split
    · exact ends ['+'] (by decide)
    · exact ends [] (by decide)

private theorem spells_scientific (layout : Layout) (marked : layout.mark ∈ ['e', 'E']) (exponent : Int) :
    Spells (layout.scientific digits exponent) (ofDigits digits * 10 ^ (exponent + 1 - digits.length)) := by
  obtain ⟨first, rest, rfl⟩ := List.exists_cons_of_ne_nil some_
  obtain ⟨digit, places⟩ := List.forall_mem_cons.mp all
  have whole : Digits [first] := List.forall_mem_singleton.mpr digit
  have ends := ending_exponentText layout marked exponent
  unfold Layout.scientific
  simp only [List.drop_one, List.tail_cons, List.take_succ_cons, List.take_zero]
  by_cases none : rest = []
  · subst none
    have value : ofDigits [first] * (10 : ℚ) ^ (exponent + 1 - ↑[first].length) =
        ofDigits [first] * 10 ^ exponent := by simp
    rw [value]
    cases layout.fullMantissa with
    | true =>
      refine ⟨_, Numeral.pointed (List.cons_ne_nil first []) whole (digits_zeros 1) ends, ?_⟩
      exact value_zeroFraction [first] exponent
    | false => exact ⟨_, Numeral.whole (List.cons_ne_nil first []) whole ends, value_noFraction [first] exponent⟩
  · rw [List.isEmpty_eq_false_iff.mpr none]
    refine ⟨_, Numeral.pointed (List.cons_ne_nil first []) whole places ends, ?_⟩
    rw [value_ofParts, List.length_cons]
    congr 2
    omega

omit some_ all in
theorem spells_positive (layout : Layout) (marked : layout.mark ∈ ['e', 'E']) (d : Decimal) :
    Spells (layout.positive d) d.value := by
  have some_ : significantDigits d ≠ [] := Nat.toDigits_ne_nil
  have all : Digits (significantDigits d) := digits_toDigits _
  have value : d.value = ofDigits (significantDigits d) *
      10 ^ (scientificExponent d + 1 - (significantDigits d).length) := by
    rw [← value_normalize, significantDigits, ofDigits_toDigits, scientificExponent, significantDigits]
    unfold Decimal.value
    congr 2
    omega
  unfold Layout.positive
  rw [value]
  simp only
  split
  · exact spells_plain some_ all _
  · exact spells_scientific some_ all layout marked _

omit some_ all in
theorem spells_withoutZeroFraction {value : ℚ} (spells : Spells text value) :
    Spells (Value.withoutZeroFraction text) value := by
  unfold Value.withoutZeroFraction
  split
  · next suffix =>
    obtain ⟨front, parted⟩ := List.isSuffixOf_iff_suffix.mp suffix
    obtain ⟨d, numeral, rfl⟩ := spells
    cases numeral with
    | @whole whole ending power some_ all ends =>
      have inside : '.' ∈ whole ++ ending := by simp [← parted]
      exact absurd inside (List.not_mem_append (all.apart (by decide)) ends.noPoint)
    | @pointed whole fraction ending power some_ all places ends =>
      have behind : '.' ∉ fraction ++ ending := List.not_mem_append (places.apart (by decide)) ends.noPoint
      obtain ⟨rfl, -, last⟩ := (List.append_cons_inj_of_notMem (all.apart (by decide)) behind).mp parted.symm
      rcases List.append_eq_singleton_iff.mp last with ⟨rfl, rfl⟩ | ⟨rfl, rfl⟩
      · exact absurd rfl (ends.stops '0' rfl).1
      · cases ends
        have left : (whole ++ '.' :: (['0'] ++ [])).dropLast.dropLast = whole := by
          rw [List.append_cons, List.append_nil, List.dropLast_concat, List.dropLast_concat]
        have numeral := Numeral.whole some_ all .nothing
        rw [List.append_nil] at numeral
        rw [left, value_zeroFraction]
        exact ⟨_, numeral, value_noFraction whole 0⟩
  · exact spells

end Writing

end Cfpl.Decimal
