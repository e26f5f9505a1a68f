import Cfpl.Proofs.Source.Cut

/-! Where a text ends with a line feed that no literal runs over, it can be cut in two: the pieces of the
first part are the same whatever stands behind, and the pieces of the second part are those of a text of its
own that stands further down. -/

namespace Cfpl.Source

variable {rest more : List Char}

section Cut

private theorem takeWhile_append_more {p : Char → Bool} {c : Char} (member : c ∈ rest) (stops : ¬p c)
    (more : List Char) : (rest ++ more).takeWhile p = rest.takeWhile p := by
  rw [List.takeWhile_append, if_neg]
  intro whole
  have all : rest.takeWhile p = rest := (List.takeWhile_prefix p).eq_of_length whole
  rw [← all] at member
  exact stops (List.mem_takeWhile_imp member)

private theorem drop_append_more {p : Char → Bool} (rest more : List Char) :
    (rest ++ more).drop (rest.takeWhile p).length = rest.drop (rest.takeWhile p).length ++ more :=
  List.drop_append_of_le_length (List.takeWhile_prefix p).length_le

private theorem head?_append_more (some_ : rest ≠ []) (more : List Char) : (rest ++ more).head? = rest.head? :=
  List.head?_append_of_ne_nil rest some_

private theorem getLast?_drop (ends : rest.getLast? = some '\n') {count : Nat} (left : rest.drop count ≠ []) :
    (rest.drop count).getLast? = some '\n' := by
  rw [List.getLast?_drop, if_neg, ends]
  intro covered
  exact left (List.drop_eq_nil_of_le covered)

private theorem dropped_ne_nil {p : Char → Bool} (ends : rest.getLast? = some '\n') (stops : ¬p '\n') :
    rest.drop (rest.takeWhile p).length ≠ [] := by
  intro none
  have whole := takeWhile_append_drop p rest
  rw [none, List.append_nil] at whole
  have member := List.mem_of_getLast? ends
  rw [← whole] at member
  exact stops (List.mem_takeWhile_imp member)

private theorem ne_nil_of_ends (ends : rest.getLast? = some '\n') : rest ≠ [] := by
  rintro rfl
  cases ends

private theorem drop_takeWhile_mark {mark : Char} (member : mark ∈ rest) :
    ∃ behind, rest.drop (rest.takeWhile (· != mark)).length = mark :: behind := by
  rcases drop_takeWhile mark rest with ⟨_, absent⟩ | found
  · exact absurd member absent
  · exact found

private theorem mem_of_found {mark : Char}
    (found : ∃ behind, rest.drop (rest.takeWhile (· != mark)).length = mark :: behind) :
    mark ∈ rest := by
  obtain ⟨behind, found⟩ := found
  exact List.mem_of_mem_drop (by rw [found]; exact .head behind)

private theorem string_append (closed : '"' ∈ rest) (more : List Char) : string (rest ++ more) = string rest := by
  obtain ⟨behind, found⟩ := drop_takeWhile_mark closed
  unfold string
  simp only
  rw [takeWhile_append_more closed (by simp) more, drop_append_more, found]
  rfl

private theorem character_append (closed : '\'' ∈ rest) (more : List Char) :
    character (rest ++ more) = character rest := by
  obtain ⟨behind, found⟩ := drop_takeWhile_mark closed
  unfold character
  simp only
  rw [takeWhile_append_more closed (by simp) more, drop_append_more, found]
  rfl

private theorem head?_drop_bracket {inside after : List Char} (ends : rest.getLast? = some '\n')
    (whole : inside ++ ']' :: after = rest) (more : List Char) :
    ((rest ++ more).drop (inside.length + 1)).head? = (rest.drop (inside.length + 1)).head? := by
  have some_ : after ≠ [] := by
    rintro rfl
    rw [← whole] at ends
    simp at ends
  have left : rest.drop (inside.length + 1) = after := by
    rw [← whole, List.drop_append]
    simp
  have leftMore : (rest ++ more).drop (inside.length + 1) = after ++ more := by
    rw [← whole, List.append_assoc, List.drop_append]
    simp
  rw [left, leftMore, head?_append_more some_]

private theorem escape_append (ends : rest.getLast? = some '\n') (closed : ']' ∈ rest) (more : List Char) :
    escape (rest ++ more) = escape rest := by
  obtain ⟨behind, found⟩ := drop_takeWhile_mark closed
  have whole := takeWhile_append_drop (· != ']') rest
  rw [found] at whole
  have some_ : behind ≠ [] := by
    rintro rfl
    rw [← whole] at ends
    simp at ends
  unfold escape
  simp only
  rw [takeWhile_append_more closed (by simp) more, drop_append_more, found, List.cons_append]
  simp only
  rw [head?_append_more some_]
  by_cases second : behind.head? = some ']'
  · obtain ⟨after, rfl⟩ := List.head?_eq_some_iff.mp second
    rw [if_pos second, head?_drop_bracket ends (by simpa using whole)]
  · rw [if_neg second, head?_drop_bracket ends whole]

private theorem restOfLine_append (ends : rest.getLast? = some '\n') (more : List Char) :
    restOfLine (rest ++ more) = restOfLine rest :=
  takeWhile_append_more (List.mem_of_getLast? ends) (by decide) more

private theorem paired_append (ends : rest.getLast? = some '\n') (more : List Char) (next : Char)
    (long short : Symbol) : paired next long short (rest ++ more) = paired next long short rest := by
  unfold paired
  rw [head?_append_more (ne_nil_of_ends ends)]

private theorem fraction_append {text : List Char} (ends : text.getLast? = some '\n') (more : List Char) :
    fraction (text ++ more) = fraction text := by
  obtain _ | ⟨first, behind⟩ := text
  · cases ends
  by_cases point : first = '.'
  · subst point
    have last : behind.getLast? = some '\n' := by
      obtain _ | ⟨second, behind⟩ := behind
      · cases ends
      · rwa [List.getLast?_cons_cons] at ends
    have same : (behind ++ more).takeWhile Char.isDigit = behind.takeWhile Char.isDigit :=
      takeWhile_append_more (List.mem_of_getLast? last) (by decide) more
    simp only [List.cons_append, fraction, same]
  · have none (others : List Char) : fraction (first :: others) = [] := by
      unfold fraction
      split
      · next same => exact absurd (List.cons.inj same).1 point
      · rfl
    rw [List.cons_append, none, none]

private theorem number_append (ends : rest.getLast? = some '\n') (first : Char) (more : List Char) :
    number first (rest ++ more) = number first rest := by
  have same : (rest ++ more).takeWhile Char.isDigit = rest.takeWhile Char.isDigit :=
    takeWhile_append_more (List.mem_of_getLast? ends) (by decide) more
  have left : (rest.drop (rest.takeWhile Char.isDigit).length).getLast? = some '\n' :=
    getLast?_drop ends (dropped_ne_nil ends (by decide))
  unfold number
  simp only
  rw [same, drop_append_more, fraction_append left]

private theorem word_append (ends : rest.getLast? = some '\n') (first : Char) (more : List Char) :
    word first (rest ++ more) = word first rest := by
  have same : (rest ++ more).takeWhile isWordChar = rest.takeWhile isWordChar :=
    takeWhile_append_more (List.mem_of_getLast? ends) (by decide) more
  unfold word
  simp only
  rw [same, drop_append_more, head?_append_more (dropped_ne_nil ends (by decide))]

theorem mem_of_string (whole : ∀ flaw ∈ (string rest).flaws, ¬flaw.cutsOff) : '"' ∈ rest := by
  refine Classical.byContradiction fun absent => ?_
  obtain ⟨ended, _⟩ := (drop_takeWhile '"' rest).resolve_right fun found => absent (mem_of_found found)
  rw [string, ended] at whole
  exact whole .unterminatedString (List.mem_singleton.mpr rfl) rfl

theorem mem_of_character (whole : ∀ flaw ∈ (character rest).flaws, ¬flaw.cutsOff) : '\'' ∈ rest := by
  refine Classical.byContradiction fun absent => ?_
  obtain ⟨ended, _⟩ := (drop_takeWhile '\'' rest).resolve_right fun found => absent (mem_of_found found)
  rw [character, ended] at whole
  exact whole .unterminatedCharacter (List.mem_singleton.mpr rfl) rfl

private theorem mem_of_escape (whole : ∀ flaw ∈ (escape rest).flaws, ¬flaw.cutsOff) : ']' ∈ rest := by
  refine Classical.byContradiction fun absent => ?_
  obtain ⟨ended, _⟩ := (drop_takeWhile ']' rest).resolve_right fun found => absent (mem_of_found found)
  rw [escape, ended] at whole
  exact whole .unterminatedEscape (List.mem_singleton.mpr rfl) rfl

private theorem cut_append {context : Context} {first : Char} (ends : rest.getLast? = some '\n')
    (whole : ∀ flaw ∈ (cut context first rest).flaws, ¬flaw.cutsOff) (more : List Char) :
    cut context first (rest ++ more) = cut context first rest := by
  have some_ := ne_nil_of_ends ends
  unfold cut at whole ⊢
  rw [restOfLine_append ends, head?_append_more some_]
  split at whole
  case h_9 | h_10 | h_12 | h_13 | h_15 => exact paired_append ends more _ _ _
  case h_14 => rw [paired_append ends]
  case h_21 =>
    split at whole
    · next bracket =>
      rw [if_pos bracket, if_pos bracket]
      exact escape_append ends (mem_of_escape whole) more
    · next plain =>
      rw [if_neg plain, if_neg plain]
      exact string_append (mem_of_string whole) more
  case h_23 => exact character_append (mem_of_character whole) more
  case h_24 => rw [number_append ends, word_append ends]
  all_goals rfl

private theorem getLast?_behind {context : Context} {first : Char} (ends : rest.getLast? = some '\n')
    (whole : ∀ flaw ∈ (cut context first rest).flaws, ¬flaw.cutsOff) :
    ∃ left, (cut context first rest).tail ++ left = rest ∧ left.getLast? = some '\n' := by
  have kind := kind_cut context first rest
  generalize cut context first rest = found at kind whole ⊢
  have shorter {tail : List Char} (taken : tail <+: rest) (within : tail.getLast? ≠ some '\n') :
      ∃ left, tail ++ left = rest ∧ left.getLast? = some '\n' := by
    obtain ⟨left, rfl⟩ := taken
    rw [List.getLast?_append] at ends
    rcases Option.or_eq_some_iff.mp ends with last | ⟨_, last⟩
    · exact ⟨left, rfl, last⟩
    · exact absurd last within
  cases kind with
  | token taken within => exact shorter taken within
  | blank => exact shorter List.nil_prefix (by decide)
  | lineFeed => exact shorter List.nil_prefix (by decide)
  | comment =>
    exact shorter (List.takeWhile_prefix _) (getLast?_ne_lineFeed (not_mem_takeWhile (by decide) rest))
  | unexpected => exact shorter List.nil_prefix (by decide)
  | unclosed cutOff =>
    cases cutOff <;> exact absurd rfl (whole _ (List.mem_singleton.mpr rfl))

end Cut

def Piece.shift (lines : Nat) (piece : Piece) : Piece := { piece with line := piece.line + lines }

private theorem Piece.token?_shift (lines : Nat) (piece : Piece) :
    (piece.shift lines).token? = piece.token?.map (Token.shift lines) := by
  unfold Piece.token?
  rw [Option.map_map]
  congr 1
  funext made
  simp only [Function.comp_apply, Token.shift, Piece.shift]
  congr 1
  push_cast
  omega

private theorem Piece.diagnostics_shift (lines : Nat) (piece : Piece) :
    (piece.shift lines).diagnostics = piece.diagnostics.map (.shift lines) := by
  unfold Piece.diagnostics
  rw [List.map_map]
  congr 1
  funext flaw
  simp only [Function.comp_apply, Diagnostic.shift, Diagnostic.onLine, Piece.shift]
  congr 1
  push_cast
  omega

def Context.shift (lines : Nat) (context : Context) : Context := { context with line := context.line + lines }

private theorem piecesFrom_shift (lines : Nat) (context : Context) (text : List Char) :
    piecesFrom (context.shift lines) text = (piecesFrom context text).map (Piece.shift lines) := by
  induction context, text using piecesFrom.induct with
  | case1 context => rw [piecesFrom, piecesFrom, List.map_nil]
  | case2 context first rest found text ih =>
    have same : cut (context.shift lines) first rest = cut context first rest := rfl
    have moved : (context.shift lines).after text found.token =
        (context.after text found.token).shift lines := by
      simp only [Context.after, Context.shift, Nat.add_right_comm]
    rw [piecesFrom, piecesFrom, List.map_cons, ← ih, same]
    exact congrArg (_ :: piecesFrom · _) moved

def Context.behind (context : Context) (text : List Char) : Context :=
  ⟨context.line + lineFeeds text, false, true⟩

def firstPiece (context : Context) (first : Char) (rest : List Char) : Piece :=
  ⟨first :: (cut context first rest).tail, context.line, (cut context first rest).token,
    (cut context first rest).flaws⟩

theorem piecesFrom_cons (context : Context) (first : Char) {rest left : List Char}
    (split : (cut context first rest).tail ++ left = rest) :
    piecesFrom context (first :: rest) = firstPiece context first rest ::
      piecesFrom (context.after (firstPiece context first rest).text (cut context first rest).token)
        left := by
  have behind : rest.drop (cut context first rest).tail.length = left := by
    nth_rewrite 2 [← split]
    exact List.drop_left
  rw [piecesFrom, behind]
  rfl

private theorem whole_induction {motive : Context → List Char → Prop}
    (lineFeed : ∀ context, motive context ['\n'])
    (piece : ∀ context first rest left, rest.getLast? = some '\n' →
      (∀ flaw ∈ (cut context first rest).flaws, ¬flaw.cutsOff) →
      (cut context first rest).tail ++ left = rest →
      motive (context.after (firstPiece context first rest).text (cut context first rest).token) left →
      motive context (first :: rest))
    (context : Context) (text : List Char) (ends : text.getLast? = some '\n')
    (whole : ∀ piece ∈ piecesFrom context text, ∀ flaw ∈ piece.flaws, ¬flaw.cutsOff) :
    motive context text := by
  induction context, text using piecesFrom.induct with
  | case1 context => cases ends
  | case2 context first rest found text ih =>
    by_cases last : rest = []
    · subst last
      obtain rfl : first = '\n' := Option.some.inj ends
      exact lineFeed context
    · rw [List.getLast?_cons_of_ne_nil last] at ends
      rw [piecesFrom] at whole
      obtain ⟨wholeFirst, wholeRest⟩ := List.forall_mem_cons.mp whole
      obtain ⟨left, split, endsLeft⟩ := getLast?_behind ends wholeFirst
      have behind : rest.drop found.tail.length = left := by
        rw [← split]
        exact List.drop_left
      rw [behind] at ih wholeRest
      exact piece context first rest left ends wholeFirst split (ih endsLeft wholeRest)

private theorem piecesFrom_lineFeed (context : Context) (more : List Char) :
    piecesFrom context ('\n' :: more) =
      firstPiece context '\n' [] :: piecesFrom (context.behind ['\n']) more := by
  obtain ⟨line, word, starts⟩ := context
  cases starts <;> exact piecesFrom_cons _ '\n' rfl

private theorem Context.behind_after (context : Context) (front back : List Char)
    (token : Option (Symbol × Option Value)) :
    (context.after front token).behind back = context.behind (front ++ back) := by
  simp [behind, after, Nat.add_assoc]

section Whole

variable (context : Context) (text : List Char) (ends : text.getLast? = some '\n')
  (whole : ∀ piece ∈ piecesFrom context text, ∀ flaw ∈ piece.flaws, ¬flaw.cutsOff)
include ends whole

private theorem piecesFrom_append (more : List Char) :
    piecesFrom context (text ++ more) = piecesFrom context text ++ piecesFrom (context.behind text) more := by
  refine whole_induction (motive := fun context text => piecesFrom context (text ++ more) =
    piecesFrom context text ++ piecesFrom (context.behind text) more) ?_ ?_ context text ends whole
  · intro context
    rw [List.cons_append, List.nil_append, piecesFrom_lineFeed, piecesFrom_lineFeed, piecesFrom]
    rfl
  · intro context first rest left endsRest wholeFirst split ih
    have same := cut_append endsRest wholeFirst more
    have splitMore : (cut context first (rest ++ more)).tail ++ (left ++ more) = rest ++ more := by
      rw [same, ← List.append_assoc, split]
    have sameFirst : firstPiece context first (rest ++ more) = firstPiece context first rest := by
      simp only [firstPiece, same]
    have joined : (firstPiece context first rest).text ++ left = first :: rest := congrArg (first :: ·) split
    rw [List.cons_append, piecesFrom_cons context first splitMore, piecesFrom_cons context first split,
      sameFirst, same, ih, context.behind_after, joined, List.cons_append]

private theorem getLast?_tokens :
    (∃ token ∈ ((piecesFrom context text).filterMap Piece.token?).getLast?, token.symbol = .newline) ∨
      (piecesFrom context text).filterMap Piece.token? = [] ∧ context.lineStart = true := by
  refine whole_induction (motive := fun context text =>
    (∃ token ∈ ((piecesFrom context text).filterMap Piece.token?).getLast?, token.symbol = .newline) ∨
      (piecesFrom context text).filterMap Piece.token? = [] ∧ context.lineStart = true) ?_ ?_ context text
    ends whole
  · intro context
    rw [piecesFrom_lineFeed, piecesFrom]
    obtain ⟨line, word, starts⟩ := context
    cases starts with
    | false => exact .inl ⟨_, rfl, rfl⟩
    | true => exact .inr ⟨rfl, rfl⟩
  · intro context first rest left _ _ split ih
    rw [piecesFrom_cons context first split]
    cases made : (cut context first rest).token with
    | none =>
      have silent : (firstPiece context first rest).token? = none := by
        simp [Piece.token?, firstPiece, made]
      rw [made] at ih
      rw [List.filterMap_cons_none silent]
      exact ih
    | some found =>
      obtain ⟨symbol, literal⟩ := found
      obtain ⟨token, spelled, same⟩ : ∃ token, (firstPiece context first rest).token? = some token ∧
          token.symbol = symbol :=
        ⟨_, by rw [Piece.token?, firstPiece, made, Option.map_some], rfl⟩
      rw [made] at ih
      rw [List.filterMap_cons_some spelled]
      rcases ih with ⟨last, found, ends⟩ | ⟨none, starts⟩
      · exact .inl ⟨last, by rw [List.getLast?_cons, Option.mem_def.mp found]; rfl, ends⟩
      · refine .inl ⟨token, by rw [none]; rfl, same.trans ?_⟩
        simpa [Context.after] using starts

end Whole

section Texts

variable {first : String} (second : String) (closed : first = "" ∨ first.toList.getLast? = some '\n')
  (whole : ∀ piece ∈ pieces first, ∀ flaw ∈ piece.flaws, ¬flaw.cutsOff)
include closed whole

private theorem pieces_append :
    pieces (first ++ second) =
      pieces first ++ (pieces second).map (Piece.shift (lineFeeds first.toList)) := by
  unfold pieces
  rw [String.toList_append, ← piecesFrom_shift]
  rcases closed with rfl | ends
  · rw [String.toList_empty, piecesFrom]
    rfl
  · rw [piecesFrom_append _ _ ends whole]
    rfl

theorem tokens_append :
    tokens (first ++ second) = (pieces first).filterMap Piece.token? ++
      (tokens second).map (Token.shift (lineFeeds first.toList)) := by
  have moved : Piece.token? ∘ Piece.shift (lineFeeds first.toList) =
      fun piece => piece.token?.map (Token.shift (lineFeeds first.toList)) :=
    funext fun piece => piece.token?_shift _
  have ended : endToken (first ++ second) = (endToken second).shift (lineFeeds first.toList) := by
    simp only [endToken, Token.shift, String.toList_append, lineFeeds_append]
    congr 1
    push_cast
    omega
  unfold tokens
  rw [pieces_append second closed whole, List.filterMap_append, List.filterMap_map, moved, ended,
    List.map_append, List.map_filterMap, List.append_assoc]
  rfl

theorem diagnostics_append :
    diagnostics (first ++ second) =
      diagnostics first ++ (diagnostics second).map (.shift (lineFeeds first.toList)) := by
  unfold diagnostics
  rw [pieces_append second closed whole, List.flatMap_append, List.flatMap_map, List.map_flatMap]
  congr 2
  exact funext fun piece => piece.diagnostics_shift _

omit second

theorem fed_tokens :
    ∀ token ∈ ((pieces first).filterMap Piece.token?).getLast?, token.symbol = .newline := by
  intro token last
  rcases closed with rfl | ends
  · rw [pieces, String.toList_empty, piecesFrom] at last
    cases last
  · rcases getLast?_tokens .initial first.toList ends whole with ⟨other, found, fed⟩ | ⟨none, _⟩
    · rw [Option.mem_unique last found]
      exact fed
    · rw [pieces, none] at last
      cases last

end Texts

theorem whole_of_quiet {source : String} (quiet : diagnostics source = []) :
    ∀ piece ∈ pieces source, ∀ flaw ∈ piece.flaws, ¬flaw.cutsOff := by
  intro piece member flaw held
  have none := List.flatMap_eq_nil_iff.mp quiet piece member
  rw [List.map_eq_nil_iff.mp none] at held
  cases held

def cutOffMessages : List String :=
  ["Unterminated string.", "Unterminated character.", "Unterminated escape code."]

private theorem Flaw.message_of_cutsOff {flaw : Flaw} (cutOff : flaw.cutsOff) : flaw.message ∈ cutOffMessages := by
  cases flaw with
  | unterminatedString | unterminatedEscape | unterminatedCharacter => decide
  | _ => cases cutOff

private theorem whole_of_messages {source : String}
    (whole : ∀ report ∈ diagnostics source, report.message ∉ cutOffMessages) :
    ∀ piece ∈ pieces source, ∀ flaw ∈ piece.flaws, ¬flaw.cutsOff := by
  intro piece member flaw held cutOff
  exact whole _ (List.mem_flatMap.mpr ⟨piece, member, List.mem_map_of_mem held⟩)
    (Flaw.message_of_cutsOff cutOff)

/-- A text that ends with a line is taken by itself: what stands behind it moves down and changes in nothing
else. Neither the comments, the literals nor the feeds of the one part reach into the other. -/
theorem text_in_two_parts {first : String} (second : String)
    (closed : first = "" ∨ first.toList.getLast? = some '\n')
    (whole : ∀ report ∈ diagnostics first, report.message ∉ cutOffMessages) :
    tokens (first ++ second) =
        (tokens first).dropLast ++ (tokens second).map (.shift (lineFeeds first.toList)) ∧
      diagnostics (first ++ second) =
        diagnostics first ++ (diagnostics second).map (.shift (lineFeeds first.toList)) := by
  have uncut := whole_of_messages whole
  have front : (tokens first).dropLast = (pieces first).filterMap Piece.token? := List.dropLast_concat
  exact ⟨front ▸ tokens_append second closed uncut, diagnostics_append second closed uncut⟩

def upperLines : String := "VAR a_1 = 3 * 2 AS INT\n* it is 'open\n'bc' * a\n"

def lowerLines : String := "\n* also \"open\n\n99999999999 * a\nOUTPUT: a & \"open\nSTOP"

theorem upper_and_lower_lines :
    (∀ report ∈ diagnostics upperLines, report.message ∉ cutOffMessages) ∧
      diagnostics upperLines = [.onLine 3 "bc is not a character"] ∧
      diagnostics (upperLines ++ lowerLines) =
        [.onLine 3 "bc is not a character", .onLine 7 "99999999999 is out of range for Integer",
          .onLine 9 "Unterminated string."] ∧
      tokens (upperLines ++ lowerLines) =
        (tokens upperLines).dropLast ++ (tokens lowerLines).map (.shift 3) := by
  have upper : diagnostics upperLines = [.onLine 3 "bc is not a character"] := by decide +kernel
  have lower : diagnostics lowerLines =
      [.onLine 4 "99999999999 is out of range for Integer", .onLine 6 "Unterminated string."] := by
    decide +kernel
  have whole : ∀ report ∈ diagnostics upperLines, report.message ∉ cutOffMessages := by
    rw [upper]
    decide +kernel
  obtain ⟨spelled, reported⟩ := text_in_two_parts lowerLines (.inr (by decide +kernel)) whole
  refine ⟨whole, upper, ?_, spelled⟩
  rw [reported, upper, lower]
  rfl

end Cfpl.Source
