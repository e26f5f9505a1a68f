import Cfpl.Proofs.Source.Cut
import Mathlib.Data.List.Chain

/-! The tokens of every text lie in it as its layout says, piece by piece, with what the context of a piece
tells of the text before it. -/

namespace Cfpl.Source

private theorem any_lastLine_append (before text : List Char) :
    (lastLine (before ++ text)).any isWordChar =
      Context.wordAfter ((lastLine before).any isWordChar) text := by
  induction text generalizing before with
  | nil => rw [List.append_nil]; rfl
  | cons c text ih =>
    have split : before ++ c :: text = (before ++ [c]) ++ text := by simp
    rw [split, ih, Context.wordAfter, Context.wordAfter, List.foldl_cons]
    congr 1
    unfold lastLine
    by_cases ends : c = '\n'
    · rw [List.rtakeWhile_concat_neg _ _ _ (by simp [ends]), if_pos ends]
      rfl
    · rw [List.rtakeWhile_concat_pos _ _ _ (by simp [ends]), if_neg ends, List.any_append]
      simp

structure Context.Fits (context : Context) (before : List Char) (last : Option Symbol) : Prop where
  line : context.line = 1 + lineFeeds before
  word : context.word = (lastLine before).any isWordChar
  lineStart : context.lineStart = true ↔ last = none ∨ last = some .newline

theorem Context.Fits.after {context : Context} {before : List Char} {last : Option Symbol}
    (fits : context.Fits before last) (text : List Char) :
    (context.after text none).Fits (before ++ text) last where
  line := by
    rw [lineFeeds_append, ← Nat.add_assoc, ← fits.line]
    rfl
  word := by
    rw [any_lastLine_append, ← fits.word]
    rfl
  lineStart := fits.lineStart

theorem Context.Fits.afterToken {context : Context} {before : List Char} {last : Option Symbol}
    (fits : context.Fits before last) (text : List Char) (symbol : Symbol) (literal : Option Value) :
    (context.after text (some (symbol, literal))).Fits (before ++ text) (some symbol) where
  line := (fits.after text).line
  word := (fits.after text).word
  lineStart := by simp [Context.after]

theorem Context.fits_initial : Context.initial.Fits [] none :=
  ⟨rfl, rfl, by simp [Context.initial]⟩

private theorem oneLine_restOfLine (rest : List Char) : '\n' ∉ restOfLine rest := by
  intro member
  have other := List.mem_takeWhile_imp member
  simp at other

theorem whole_restOfLine (rest : List Char) :
    rest.drop (restOfLine rest).length = [] ∨ (rest.drop (restOfLine rest).length).head? = some '\n' := by
  rcases drop_takeWhile '\n' rest with ⟨ended, _⟩ | ⟨more, found⟩
  · exact .inl ended
  · exact .inr (by rw [restOfLine, found]; rfl)

theorem Context.Fits.opensComment {context : Context} {before : List Char} {last : Option Symbol}
    (fits : context.Fits before last) {first : Char} {rest : List Char}
    (opens : (first = '/' ∧ rest.head? = some '/') ∨ (first = '*' ∧ context.word = false)) :
    OpensComment before (first :: restOfLine rest) := by
  rcases opens with ⟨rfl, second⟩ | ⟨rfl, alone⟩
  · obtain ⟨more, rfl⟩ := List.head?_eq_some_iff.mp second
    exact .slashes (more.takeWhile (· != '\n'))
  · rw [fits.word] at alone
    exact .star (by simpa using alone)

section Piece

variable {context : Context} {before : List Char} {last : Option Symbol} (fits : context.Fits before last)
include fits

theorem token?_of_fits (text : List Char) (symbol : Symbol) (literal : Option Value) (flaws : List Flaw) :
    Piece.token? ⟨text, context.line, some (symbol, literal), flaws⟩ =
      some ⟨symbol, .ofList text, literal, (1 + lineFeeds (before ++ text.dropLast) : Nat)⟩ := by
  have place : context.line + lineFeeds text.dropLast = 1 + lineFeeds (before ++ text.dropLast) :=
    (fits.after text.dropLast).line
  rw [← place]
  rfl

theorem diagnostics_of_fits (text : List Char) (token : Option (Symbol × Option Value))
    (flaws : List Flaw) :
    Piece.diagnostics ⟨text, context.line, token, flaws⟩ =
      flaws.map fun flaw => .onLine (1 + lineFeeds (before ++ text) : Nat) flaw.message := by
  have place : context.line + lineFeeds text = 1 + lineFeeds (before ++ text) := (fits.after text).line
  rw [← place]
  rfl

end Piece

theorem layout_pieces (context : Context) (text : List Char) :
    ∀ before last, context.Fits before last →
      Layout before last text ((piecesFrom context text).filterMap Piece.token?)
        ((piecesFrom context text).flatMap Piece.diagnostics) := by
  induction context, text using piecesFrom.induct with
  | case1 context =>
    intro before last _
    rw [piecesFrom]
    exact .nothing before last
  | case2 context first rest found text ih =>
    intro before last fits
    have kind := kind_cut context first rest
    rw [piecesFrom]
    simp only [text, found] at ih ⊢
    clear text found
    generalize cut context first rest = found at kind ih ⊢
    rw [List.flatMap_cons, diagnostics_of_fits fits]
    cases kind with
    | @token _ _ tail symbol literal flaws taken _ inText endsLine own =>
      obtain ⟨more, rfl⟩ := taken
      have behind := ih _ _ (fits.afterToken (first :: tail) symbol literal)
      rw [List.drop_left] at behind
      rw [List.filterMap_cons_some (token?_of_fits fits _ _ _ _), List.drop_left, ← List.cons_append]
      refine .token (List.cons_ne_nil first tail) inText (fun ends => ?_) own behind
      obtain ⟨rfl, rfl, open_⟩ := endsLine ends
      refine ⟨rfl, not_or.mp fun starts => ?_⟩
      rw [fits.lineStart.mpr starts] at open_
      cases open_
    | blank white => exact .blank white (ih _ _ (fits.after [first]))
    | lineFeed endsNothing => exact .lineFeed (fits.lineStart.mp endsNothing) (ih _ _ (fits.after ['\n']))
    | comment opens =>
      have behind := ih _ _ (fits.after (first :: restOfLine rest))
      have oneLine : '\n' ∉ first :: restOfLine rest := by
        refine List.not_mem_cons_of_ne_of_not_mem ?_ (oneLine_restOfLine rest)
        rcases opens with ⟨rfl, _⟩ | ⟨rfl, _⟩ <;> decide
      have layout := Layout.comment (fits.opensComment opens) oneLine (whole_restOfLine rest) behind
      rwa [List.cons_append, restOfLine, takeWhile_append_drop] at layout
    | unexpected sameLine =>
      have place : lineFeeds (before ++ [first]) = lineFeeds before := by
        rw [lineFeeds_append]
        simp [lineFeeds, sameLine]
      have layout := Layout.unexpected (ih _ _ (fits.after [first]))
      rwa [← place] at layout
    | @unclosed _ _ flaw cutOff =>
      have ended : rest.drop (Cut.flawed rest flaw).tail.length = [] := List.drop_length
      rw [ended, piecesFrom]
      exact .unclosed cutOff

section Lines

variable {before text : List Char} {last : Option Symbol} {tokens : List Token} {reports : List Diagnostic}

private theorem Layout.ends_line (layout : Layout before last text tokens reports) :
    ∀ token ∈ tokens.head?, token.symbol = .newline → last ≠ none ∧ last ≠ some .newline := by
  induction layout with
  | nothing => exact fun _ member => nomatch member
  | token spelled inText endsLine own behind ih =>
    intro token member ends
    cases Option.mem_some_iff.mp member
    exact (endsLine ends).2
  | blank white behind ih => exact ih
  | lineFeed endsNothing behind ih => exact ih
  | comment opens oneLine whole behind ih => exact ih
  | unexpected behind ih => exact ih
  | unclosed cutOff => exact fun _ member => nomatch member

private theorem Layout.isChain (layout : Layout before last text tokens reports) :
    tokens.IsChain fun token next => ¬(token.symbol = .newline ∧ next.symbol = .newline) := by
  induction layout with
  | nothing => exact .nil
  | token spelled inText endsLine own behind ih =>
    refine ih.cons fun next member both => ?_
    obtain ⟨ends, again⟩ := both
    exact (behind.ends_line next member again).2 (congrArg some ends)
  | blank white behind ih => exact ih
  | lineFeed endsNothing behind ih => exact ih
  | comment opens oneLine whole behind ih => exact ih
  | unexpected behind ih => exact ih
  | unclosed cutOff => exact .nil

theorem Layout.inText (layout : Layout before last text tokens reports) :
    ∀ token ∈ tokens, token.symbol ≠ .endOfText := by
  induction layout with
  | nothing => exact List.forall_mem_nil _
  | token spelled inText endsLine own behind ih => exact List.forall_mem_cons.mpr ⟨inText, ih⟩
  | blank white behind ih => exact ih
  | lineFeed endsNothing behind ih => exact ih
  | comment opens oneLine whole behind ih => exact ih
  | unexpected behind ih => exact ih
  | unclosed cutOff => exact List.forall_mem_nil _

end Lines

/-- Every text is scanned to its end. Its tokens are spelled by parts of it that follow one another, what
stands between them is skipped or reported, and no two of them in a row end a line. -/
theorem layout_tokens (source : String) :
    ∃ front, tokens source = front ++ [⟨.endOfText, "", none, (1 + lineFeeds source.toList : Nat)⟩] ∧
      Layout [] none source.toList front (diagnostics source) ∧
      (∀ token ∈ front, token.symbol ≠ .endOfText) ∧
      (∀ token ∈ (tokens source).head?, token.symbol ≠ .newline) ∧
      (tokens source).IsChain fun token next => ¬(token.symbol = .newline ∧ next.symbol = .newline) := by
  have layout : Layout [] none source.toList ((pieces source).filterMap Piece.token?)
      (diagnostics source) := layout_pieces .initial source.toList [] none Context.fits_initial
  refine ⟨(pieces source).filterMap Piece.token?, rfl, layout, layout.inText, ?_, ?_⟩
  · intro token member ends
    rw [tokens, List.head?_append] at member
    rcases Option.or_eq_some_iff.mp member with first | ⟨_, last⟩
    · exact (layout.ends_line token first ends).1 rfl
    · cases last
      cases ends
  · refine layout.isChain.append (List.isChain_singleton _) fun token _ next member both => ?_
    cases Option.mem_some_iff.mp member
    cases both.2

end Cfpl.Source
