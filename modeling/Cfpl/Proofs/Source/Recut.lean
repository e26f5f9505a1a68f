import Cfpl.Proofs.Source.Lines
import Cfpl.Proofs.Source.Seam

/-! A piece that is a token without a flaw is cut again from its own characters. What stood behind it and the
context it was found in leave no trace, as long as a blank or the end of the text follows. -/

namespace Cfpl.Source

variable {first : Char} {rest tail gap : List Char} {token : Symbol × Option Value}

section Literals

theorem takeWhile_bounded {p : Char → Bool} {content behind : List Char} (passes : ∀ c ∈ content, p c)
    (stops : ∀ c ∈ behind.head?, ¬p c) : (content ++ behind).takeWhile p = content := by
  rw [List.takeWhile_append_of_pos passes]
  cases behind with
  | nil => exact List.append_nil content
  | cons mark more => rw [List.takeWhile_cons_of_neg (stops mark rfl), List.append_nil]

theorem string_of_content {content : List Char} (plain : '"' ∉ content) (more : List Char) :
    string (content ++ '"' :: more) = ⟨content ++ ['"'], some (quotedToken content), []⟩ := by
  have inside : ∀ c ∈ content, c != '"' := fun c member => bne_iff_ne.mpr fun same => plain (same ▸ member)
  unfold string
  simp only
  rw [takeWhile_bounded inside (by simp), List.drop_left]
  rfl

private theorem character_of_content {content : List Char} (plain : '\'' ∉ content) (more : List Char) :
    character (content ++ '\'' :: more) =
      ⟨content ++ ['\''], some (.character, some (.character (content.headD '\x00'))),
        oneCharacter content⟩ := by
  have inside : ∀ c ∈ content, c != '\'' := fun c member => bne_iff_ne.mpr fun same => plain (same ▸ member)
  unfold character
  simp only
  rw [takeWhile_bounded inside (by simp), List.drop_left]
  rfl

theorem escape_of_character (c : Char) (more : List Char) :
    escape ('[' :: c :: ']' :: '"' :: more) =
      ⟨['[', c, ']', '"'], some (.text, some (.string (.ofList [c]))), []⟩ := by
  by_cases closing : c = ']'
  · subst closing
    rfl
  · have inside : ∀ other ∈ ['[', c], other != ']' := by simp [closing]
    have body : ('[' :: c :: ']' :: '"' :: more).takeWhile (· != ']') = ['[', c] :=
      takeWhile_bounded inside (by simp)
    unfold escape
    simp only
    rw [body]
    rfl

private theorem escape_shape (bracket : rest.head? = some '[') (made : escape rest = ⟨tail, some token, []⟩) :
    ∃ c more, rest = '[' :: c :: ']' :: '"' :: more := by
  obtain ⟨content, rfl⟩ := List.head?_eq_some_iff.mp bracket
  have opening : ('[' :: content).takeWhile (· != ']') = '[' :: content.takeWhile (· != ']') := rfl
  have whole := takeWhile_append_drop (· != ']') ('[' :: content)
  unfold escape at made
  simp only at made
  rcases drop_takeWhile ']' ('[' :: content) with ⟨ended, _⟩ | ⟨behind, found⟩
  · rw [ended] at made
    cases made
  · rw [found] at made whole
    obtain ⟨-, -, unflawed⟩ := Cut.mk.inj made
    obtain ⟨quoted, single⟩ := List.append_eq_nil_iff.mp unflawed
    rw [ite_eq_left_iff] at quoted
    have closed := Classical.not_not.mp fun open_ => List.cons_ne_nil _ _ (quoted open_)
    unfold oneCharacter at single
    rw [ite_eq_left_iff] at single
    have long := Classical.not_not.mp fun other => List.cons_ne_nil _ _ (single other)
    -- The body begins with the opening bracket, and what is closed holds one character behind it.
    rw [opening] at closed long whole
    generalize content.takeWhile (· != ']') = body at closed long whole
    rw [← whole] at closed
    split at closed
    · next second =>
      obtain ⟨after, rfl⟩ := List.head?_eq_some_iff.mp second
      rw [if_pos second] at long
      obtain rfl : body = [] := by simpa using long
      obtain ⟨more, rfl⟩ := List.head?_eq_some_iff.mp closed
      exact ⟨']', more, whole.symm⟩
    · next plain =>
      rw [if_neg plain] at long
      obtain ⟨c, rfl⟩ := List.length_eq_one_iff.mp long
      obtain ⟨more, rfl⟩ := List.head?_eq_some_iff.mp closed
      exact ⟨c, more, whole.symm⟩

end Literals

section Words

variable {letters behind : List Char} (inside : ∀ c ∈ letters, isWordChar c)

private theorem stops_dropped (p : Char → Bool) (text : List Char) :
    ∀ c ∈ (text.drop (text.takeWhile p).length).head?, ¬p c := by
  induction text with
  | nil => simp
  | cons first text ih =>
    by_cases passes : p first
    · simpa [List.takeWhile_cons_of_pos passes] using ih
    · simp [List.takeWhile_cons_of_neg passes, passes]

include inside

private theorem word_alone (stops : ∀ c ∈ behind.head?, ¬isWordChar c) (plain : behind.head? ≠ some ':') :
    word first (letters ++ behind) = .symbol letters (.ofWord (.ofList (first :: letters))) := by
  unfold word
  simp only
  rw [takeWhile_bounded inside stops, List.drop_left, if_neg plain, List.append_nil]

theorem word_with_colon (more : List Char) :
    word first (letters ++ ':' :: more) =
      .symbol (letters ++ [':']) (.ofWord (.ofList (first :: (letters ++ [':'])))) := by
  unfold word
  simp only
  rw [takeWhile_bounded inside (by simp +decide), List.drop_left]
  rfl

end Words

def Gap (text : List Char) : Prop := ∀ c ∈ text.head?, c = ' '

section Runs

variable (blank : Gap gap)
include blank

theorem Gap.stops {p : Char → Bool} (stops : ¬p ' ') : ∀ c ∈ gap.head?, ¬p c := by
  intro c first
  rw [blank c first]
  exact stops

private theorem fraction_gap : fraction gap = [] := by
  unfold fraction
  split
  · exact absurd (blank '.' rfl) (by decide)
  · rfl

private theorem fraction_of_digits {digits : List Char} (some_ : digits ≠ []) (all : ∀ c ∈ digits, c.isDigit) :
    fraction ('.' :: (digits ++ gap)) = '.' :: digits := by
  unfold fraction
  simp only
  rw [takeWhile_bounded all (blank.stops (by decide)), if_neg fun none => some_ (List.isEmpty_iff.mp none)]

omit blank in
private theorem fraction_cases (text : List Char) :
    fraction text = [] ∨
      ∃ digits, digits ≠ [] ∧ (∀ c ∈ digits, c.isDigit) ∧ fraction text = '.' :: digits := by
  unfold fraction
  split
  · next behind =>
    simp only
    split
    · exact .inl rfl
    · next some_ =>
      exact .inr ⟨_, fun none => some_ (List.isEmpty_iff.mpr none), fun c => List.mem_takeWhile_imp, rfl⟩
  · exact .inl rfl

private theorem fraction_again (text : List Char) : fraction (fraction text ++ gap) = fraction text := by
  rcases fraction_cases text with none | ⟨digits, some_, all, same⟩
  · rw [none, List.nil_append, fraction_gap blank]
  · rw [same, List.cons_append, fraction_of_digits blank some_ all]

private theorem number_again (first : Char) (rest : List Char) :
    number first ((number first rest).tail ++ gap) = number first rest := by
  have taken : (number first rest).tail = rest.takeWhile Char.isDigit ++
      fraction (rest.drop (rest.takeWhile Char.isDigit).length) := by
    unfold number
    simp only
    split
    · next none =>
      rw [List.isEmpty_iff.mp none, List.append_nil]
      split <;> rfl
    · rfl
  rw [taken]
  generalize fraction_ : rest.drop (rest.takeWhile Char.isDigit).length = behind
  have stops : ∀ c ∈ (fraction behind ++ gap).head?, ¬c.isDigit := by
    rcases fraction_cases behind with none | ⟨digits, _, _, same⟩
    · rw [none]
      exact blank.stops (by decide)
    · rw [same]
      simp +decide
  have digits : (rest.takeWhile Char.isDigit ++ (fraction behind ++ gap)).takeWhile Char.isDigit =
      rest.takeWhile Char.isDigit :=
    takeWhile_bounded (fun c => List.mem_takeWhile_imp) stops
  rw [List.append_assoc]
  unfold number
  simp only
  rw [digits, List.drop_left, fraction_again blank, fraction_]

private theorem word_again (first : Char) (rest : List Char) :
    word first ((word first rest).tail ++ gap) = word first rest := by
  have inside : ∀ c ∈ rest.takeWhile isWordChar, isWordChar c := fun c => List.mem_takeWhile_imp
  have whole := takeWhile_append_drop isWordChar rest
  have stops : ∀ c ∈ (rest.drop (rest.takeWhile isWordChar).length).head?, ¬isWordChar c :=
    stops_dropped isWordChar rest
  generalize rest.takeWhile isWordChar = letters at inside whole stops
  generalize rest.drop letters.length = behind at whole stops
  subst whole
  by_cases colon : behind.head? = some ':'
  · obtain ⟨more, rfl⟩ := List.head?_eq_some_iff.mp colon
    rw [word_with_colon inside more, Cut.symbol, List.append_assoc]
    exact word_with_colon inside gap
  · rw [word_alone inside stops colon]
    exact word_alone inside (blank.stops (by decide)) fun same => absurd (blank ':' same) (by decide)

private theorem paired_again {next : Char} {long short : Symbol} (other : next ≠ ' ')
    (made : paired next long short rest = ⟨tail, some token, []⟩) :
    paired next long short (tail ++ gap) = ⟨tail, some token, []⟩ := by
  have alone : gap.head? ≠ some next := fun same => other (blank next same)
  unfold paired at made ⊢
  split at made
  · cases made
    exact if_pos rfl
  · cases made
    exact if_neg alone

private theorem less_again
    (made : (if rest.head? = some '>' then .symbol ['>'] .bangEqual else paired '=' .lessEqual .less rest) =
      (⟨tail, some token, []⟩ : Cut)) :
    (if (tail ++ gap).head? = some '>' then .symbol ['>'] .bangEqual
      else paired '=' .lessEqual .less (tail ++ gap)) = (⟨tail, some token, []⟩ : Cut) := by
  split at made
  · cases made
    exact if_pos rfl
  · have again := paired_again blank (by decide) made
    have other : (tail ++ gap).head? ≠ some '>' := by
      unfold paired at made
      split at made <;> cases made
      · simp
      · exact fun same => absurd (blank '>' same) (by decide)
    rw [if_neg other]
    exact again

omit blank

private theorem text_again
    (made : (if rest.head? = some '[' then escape rest else string rest) = ⟨tail, some token, []⟩) :
    (if (tail ++ gap).head? = some '[' then escape (tail ++ gap) else string (tail ++ gap)) =
      ⟨tail, some token, []⟩ := by
  split at made
  · next bracket =>
    obtain ⟨c, more, rfl⟩ := escape_shape bracket made
    rw [escape_of_character] at made
    cases made
    exact escape_of_character c gap
  · next plain =>
    have closed : '"' ∈ rest := mem_of_string (by rw [made]; exact List.forall_mem_nil _)
    obtain ⟨content, more, rfl, unquoted⟩ := List.eq_append_cons_of_mem closed
    rw [string_of_content unquoted] at made
    cases made
    have same : (content ++ ['"'] ++ gap).head? = (content ++ '"' :: more).head? := by
      cases content <;> rfl
    rw [same, if_neg plain, List.append_assoc]
    exact string_of_content unquoted gap

private theorem character_again (made : character rest = ⟨tail, some token, []⟩) :
    character (tail ++ gap) = ⟨tail, some token, []⟩ := by
  have closed : '\'' ∈ rest := mem_of_character (by rw [made]; exact List.forall_mem_nil _)
  obtain ⟨content, more, rfl, unquoted⟩ := List.eq_append_cons_of_mem closed
  rw [character_of_content unquoted] at made
  obtain ⟨rfl, same, none⟩ := Cut.mk.inj made
  have again := character_of_content unquoted gap
  rw [same, none] at again
  rw [List.append_assoc]
  exact again

end Runs

theorem cut_of_digit {context : Context} (digit : first.isDigit) (rest : List Char) :
    cut context first rest = number first rest := by
  unfold cut
  split
  case h_24 => exact if_pos digit
  all_goals exact absurd digit (by decide)

theorem cut_of_letter {context : Context} (letter : isLetter first) (noDigit : ¬first.isDigit)
    (rest : List Char) : cut context first rest = word first rest := by
  unfold cut
  split
  case h_24 => rw [if_neg noDigit, if_pos letter]
  all_goals exact absurd letter (by decide)

theorem cut_again {context other : Context} (made : cut context first rest = ⟨tail, some token, []⟩)
    (starts : other.lineStart = context.lineStart)
    (operand : first = '*' → context.word = true → other.word = true) (blank : Gap gap) :
    cut other first (tail ++ gap) = ⟨tail, some token, []⟩ := by
  by_cases digit : first.isDigit
  · have again := number_again blank first rest
    rw [← cut_of_digit digit rest, made] at again
    rw [cut_of_digit digit]
    exact again
  by_cases letter : isLetter first
  · have again := word_again blank first rest
    rw [← cut_of_letter letter digit rest, made] at again
    rw [cut_of_letter letter digit]
    exact again
  unfold cut at made ⊢
  split at made
  case h_9 | h_10 | h_12 | h_13 | h_15 =>
    exact paired_again blank (by decide) made
  case h_11 =>
    split at made
    · next word =>
      cases made
      exact if_pos (operand rfl word)
    · cases made
  case h_14 => exact less_again blank made
  case h_16 =>
    split at made
    · cases made
    · cases made
      exact if_neg fun same => absurd (blank '/' same) (by decide)
  case h_20 =>
    split at made
    · cases made
    · next open_ =>
      cases made
      exact if_neg (by rwa [starts])
  case h_21 => exact text_again made
  case h_23 => exact character_again made
  case h_24 =>
    rw [if_neg digit, if_neg letter] at made
    cases made
  all_goals
    cases made
    try rfl

end Cfpl.Source
