import Cfpl.Source.Layout

/-! What a piece of a text can be, said once for all of its forms: how much it takes of the text behind its
first character, and what becomes of it. -/

namespace Cfpl.Source

inductive Kind (context : Context) : (first : Char) → (rest : List Char) → Cut → Prop
  | token {first : Char} {rest tail : List Char} {symbol : Symbol} {literal : Option Value}
    {flaws : List Flaw} (taken : tail <+: rest) (within : tail.getLast? ≠ some '\n')
    (inText : symbol ≠ .endOfText)
    (endsLine : symbol = .newline → first = '\n' ∧ tail = [] ∧ context.lineStart = false)
    (own : ∀ flaw ∈ flaws, flaw.leavesToken) :
    Kind context first rest ⟨tail, some (symbol, literal), flaws⟩
  | blank {first : Char} {rest : List Char} (white : first = ' ' ∨ first = '\r' ∨ first = '\t') :
    Kind context first rest (.blank [])
  | lineFeed {rest : List Char} (endsNothing : context.lineStart = true) :
    Kind context '\n' rest (.blank [])
  | comment {first : Char} {rest : List Char}
    (opens : (first = '/' ∧ rest.head? = some '/') ∨ (first = '*' ∧ context.word = false)) :
    Kind context first rest (.blank (restOfLine rest))
  | unexpected {first : Char} {rest : List Char} (sameLine : first ≠ '\n') :
    Kind context first rest (.flawed [] .unexpectedCharacter)
  | unclosed {first : Char} {rest : List Char} {flaw : Flaw} (cutOff : Unclosed (first :: rest) flaw) :
    Kind context first rest (.flawed rest flaw)

section Kind

variable {context : Context} {first : Char} {rest tail : List Char} {symbol : Symbol}

theorem getLast?_ne_lineFeed (sameLine : '\n' ∉ tail) : tail.getLast? ≠ some '\n' :=
  fun last => sameLine (List.mem_of_getLast? last)

theorem Kind.plain (taken : tail <+: rest) (sameLine : '\n' ∉ tail) (inText : symbol ≠ .endOfText)
    (open_ : symbol ≠ .newline) : Kind context first rest (.symbol tail symbol) :=
  .token taken (getLast?_ne_lineFeed sameLine) inText (fun ends => absurd ends open_) (List.forall_mem_nil _)

theorem Kind.literal {value : Value} (taken : tail <+: rest) (sameLine : '\n' ∉ tail)
    (inText : symbol ≠ .endOfText) (open_ : symbol ≠ .newline) :
    Kind context first rest (.value tail symbol value) :=
  .token taken (getLast?_ne_lineFeed sameLine) inText (fun ends => absurd ends open_) (List.forall_mem_nil _)

theorem Kind.single (inText : symbol ≠ .endOfText) (open_ : symbol ≠ .newline) :
    Kind context first rest (.symbol [] symbol) :=
  .plain List.nil_prefix List.not_mem_nil inText open_

private theorem kind_paired {next : Char} {long short : Symbol} (sameLine : '\n' ≠ next)
    (inTextLong : long ≠ .endOfText) (openLong : long ≠ .newline) (inTextShort : short ≠ .endOfText)
    (openShort : short ≠ .newline) : Kind context first rest (paired next long short rest) := by
  unfold paired
  split
  · next follows =>
    obtain ⟨more, rfl⟩ := List.head?_eq_some_iff.mp follows
    exact .plain ⟨more, rfl⟩ (by simpa using sameLine) inTextLong openLong
  · exact .single inTextShort openShort

theorem drop_takeWhile (mark : Char) (text : List Char) :
    (text.drop (text.takeWhile (· != mark)).length = [] ∧ mark ∉ text) ∨
      ∃ more, text.drop (text.takeWhile (· != mark)).length = mark :: more := by
  induction text with
  | nil => exact .inl ⟨rfl, List.not_mem_nil⟩
  | cons c text ih =>
    by_cases same : c = mark
    · subst same
      exact .inr ⟨text, by simp⟩
    · have passed : (c :: text).takeWhile (· != mark) = c :: text.takeWhile (· != mark) :=
        List.takeWhile_cons_of_pos (by simpa using same)
      rw [passed, List.length_cons, List.drop_succ_cons]
      rcases ih with ⟨ended, absent⟩ | found
      · refine .inl ⟨ended, fun member => ?_⟩
        rcases List.mem_cons.mp member with here | later
        · exact same here.symm
        · exact absent later
      · exact .inr found

theorem takeWhile_append_drop (p : Char → Bool) (text : List Char) :
    text.takeWhile p ++ text.drop (text.takeWhile p).length = text :=
  List.prefix_iff_eq_append.mp (List.takeWhile_prefix p)

private theorem prefix_found {mark : Char} {more : List Char}
    (found : rest.drop (rest.takeWhile (· != mark)).length = mark :: more) :
    rest.takeWhile (· != mark) ++ [mark] <+: rest := by
  refine ⟨more, ?_⟩
  rw [List.append_assoc, List.singleton_append, ← found]
  exact takeWhile_append_drop _ rest

private theorem inText_quotedToken (content : List Char) :
    (quotedToken content).1 ≠ .endOfText ∧ (quotedToken content).1 ≠ .newline := by
  unfold quotedToken
  split
  · decide
  · split
    · decide
    · split
      · decide
      · exact ⟨Symbol.noConfusion, Symbol.noConfusion⟩

private theorem kind_string (plain : rest.head? ≠ some '[') : Kind context '"' rest (string rest) := by
  unfold string
  simp only
  rcases drop_takeWhile '"' rest with ⟨ended, absent⟩ | ⟨more, found⟩
  · rw [ended]
    exact .unclosed (.string plain absent)
  · have taken := prefix_found found
    rw [found]
    obtain ⟨inText, open_⟩ := inText_quotedToken (rest.takeWhile (· != '"'))
    exact .token taken (by simp) inText (fun ends => absurd ends open_) (List.forall_mem_nil _)

private theorem leavesToken_oneCharacter (content : List Char) :
    ∀ flaw ∈ oneCharacter content, flaw.leavesToken := by
  unfold oneCharacter
  split
  · exact List.forall_mem_nil _
  · intro flaw member
    rw [List.mem_singleton.mp member]
    rfl

private theorem kind_character : Kind context '\'' rest (character rest) := by
  unfold character
  simp only
  rcases drop_takeWhile '\'' rest with ⟨ended, absent⟩ | ⟨more, found⟩
  · rw [ended]
    exact .unclosed (.character absent)
  · have taken := prefix_found found
    rw [found]
    exact .token taken (by simp) Symbol.noConfusion Symbol.noConfusion (leavesToken_oneCharacter _)

private theorem prefix_closed {inside after : List Char} (whole : inside ++ ']' :: after = rest) :
    inside ++ ']' :: (if (rest.drop (inside.length + 1)).head? = some '"' then ['"'] else []) <+: rest := by
  have behind : rest.drop (inside.length + 1) = after := by
    rw [← whole, List.drop_append]
    simp
  rw [behind]
  split
  · next quote =>
    obtain ⟨more, rfl⟩ := List.head?_eq_some_iff.mp quote
    exact ⟨more, by simpa using whole⟩
  · exact ⟨after, by simpa using whole⟩

private theorem getLast?_closed (inside : List Char) (closed : Prop) [Decidable closed] :
    (inside ++ ']' :: (if closed then ['"'] else [])).getLast? ≠ some '\n' := by
  split <;> simp

private theorem leavesToken_missingQuote (closed : Prop) [Decidable closed] :
    ∀ flaw ∈ if closed then [] else [Flaw.missingQuote], flaw.leavesToken := by
  split
  · exact List.forall_mem_nil _
  · intro flaw member
    rw [List.mem_singleton.mp member]
    rfl

private theorem kind_escape (bracket : rest.head? = some '[') : Kind context '"' rest (escape rest) := by
  unfold escape
  simp only
  rcases drop_takeWhile ']' rest with ⟨ended, absent⟩ | ⟨more, found⟩
  · rw [ended]
    obtain ⟨content, rfl⟩ := List.head?_eq_some_iff.mp bracket
    exact .unclosed (.escape fun member => absent (List.mem_cons_of_mem _ member))
  · have whole := takeWhile_append_drop (· != ']') rest
    rw [found] at whole ⊢
    refine .token ?_ (getLast?_closed _ _) Symbol.noConfusion Symbol.noConfusion ?_
    · split
      · next second =>
        obtain ⟨after, rfl⟩ := List.head?_eq_some_iff.mp second
        exact prefix_closed (by simpa using whole)
      · exact prefix_closed whole
    · intro flaw member
      rcases List.mem_append.mp member with quote | other
      · exact leavesToken_missingQuote _ flaw quote
      · exact leavesToken_oneCharacter _ flaw other

private theorem prefix_fraction (text : List Char) : fraction text <+: text := by
  unfold fraction
  split
  · next behind =>
    simp only
    split
    · exact List.nil_prefix
    · exact List.cons_prefix_cons.mpr ⟨rfl, List.takeWhile_prefix _⟩
  · exact List.nil_prefix

theorem not_mem_takeWhile {p : Char → Bool} (stops : ¬p '\n') (text : List Char) :
    '\n' ∉ text.takeWhile p :=
  fun member => stops (List.mem_takeWhile_imp member)

private theorem not_mem_fraction (text : List Char) : '\n' ∉ fraction text := by
  unfold fraction
  split
  · next behind =>
    simp only
    split
    · exact List.not_mem_nil
    · exact List.not_mem_cons_of_ne_of_not_mem (by decide) (not_mem_takeWhile (by decide) behind)
  · exact List.not_mem_nil

private theorem kind_number : Kind context first rest (number first rest) := by
  have sameLine : '\n' ∉ rest.takeWhile Char.isDigit := not_mem_takeWhile (by decide) rest
  unfold number
  simp only
  split
  · split
    · exact .literal (List.takeWhile_prefix _) sameLine Symbol.noConfusion Symbol.noConfusion
    · refine .token (List.takeWhile_prefix _) (getLast?_ne_lineFeed sameLine) Symbol.noConfusion
        Symbol.noConfusion ?_
      intro flaw member
      rw [List.mem_singleton.mp member]
      rfl
  · refine .literal ?_ ?_ Symbol.noConfusion Symbol.noConfusion
    · have whole := takeWhile_append_drop Char.isDigit rest
      have taken := (List.prefix_append_right_inj (rest.takeWhile Char.isDigit)).mpr
        (prefix_fraction (rest.drop (rest.takeWhile Char.isDigit).length))
      rwa [whole] at taken
    · intro member
      rcases List.mem_append.mp member with digit | place
      · exact sameLine digit
      · exact not_mem_fraction _ place

private theorem inText_ofWord (word : String) :
    Symbol.ofWord word ≠ .endOfText ∧ Symbol.ofWord word ≠ .newline := by
  have listed : ∀ entry ∈ Symbol.reservedWords, entry.2 ≠ .endOfText ∧ entry.2 ≠ .newline := by
    decide
  rcases Symbol.ofWord_mem word with name | ⟨entry, member, same⟩
  · rw [name]
    decide
  · rw [← same]
    exact listed entry member

private theorem kind_word : Kind context first rest (word first rest) := by
  have sameLine : '\n' ∉ rest.takeWhile isWordChar := not_mem_takeWhile (by decide) rest
  unfold word
  simp only
  obtain ⟨inText, open_⟩ := inText_ofWord (.ofList (first :: _))
  refine .plain ?_ ?_ inText open_
  · have whole := takeWhile_append_drop isWordChar rest
    split
    · next colon =>
      obtain ⟨more, found⟩ := List.head?_eq_some_iff.mp colon
      rw [found] at whole
      exact ⟨more, by simpa using whole⟩
    · rw [List.append_nil]
      exact List.takeWhile_prefix _
  · intro member
    rcases List.mem_append.mp member with letter | colon
    · exact sameLine letter
    · split at colon <;> simp at colon

theorem kind_cut (context : Context) (first : Char) (rest : List Char) :
    Kind context first rest (cut context first rest) := by
  unfold cut
  split
  case h_11 =>
    split
    · exact .single (by decide) (by decide)
    · next alone => exact .comment (.inr ⟨rfl, by simpa using alone⟩)
  case h_14 =>
    split
    · next other =>
      obtain ⟨more, rfl⟩ := List.head?_eq_some_iff.mp other
      exact .plain ⟨more, rfl⟩ (by decide) (by decide) (by decide)
    · exact kind_paired (by decide) (by decide) (by decide) (by decide) (by decide)
  case h_16 =>
    split
    · next second => exact .comment (.inl ⟨rfl, second⟩)
    · exact .single (by decide) (by decide)
  case h_17 => exact .blank (.inl rfl)
  case h_18 => exact .blank (.inr (.inl rfl))
  case h_19 => exact .blank (.inr (.inr rfl))
  case h_20 =>
    split
    · next starts => exact .lineFeed starts
    · next open_ =>
      exact .token List.nil_prefix (by decide) (by decide) (fun _ => ⟨rfl, rfl, by simpa using open_⟩)
        (List.forall_mem_nil _)
  case h_21 =>
    split
    · next bracket => exact kind_escape bracket
    · next plain => exact kind_string plain
  case h_22 => exact .literal List.nil_prefix List.not_mem_nil (by decide) (by decide)
  case h_23 => exact kind_character
  case h_24 =>
    split
    · exact kind_number
    · split
      · exact kind_word
      · exact .unexpected ‹_›
  -- what is left depends on nothing but the first character and the one behind it
  all_goals first
    | exact .single (by decide) (by decide)
    | exact kind_paired (by decide) (by decide) (by decide) (by decide) (by decide)

end Kind

end Cfpl.Source
