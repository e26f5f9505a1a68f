import Cfpl.Proofs.Source.Layout

/-! The lines of a program text. The pieces of a text in their order are the text, and each knows the line
that it starts on; so the lines of tokens and reports are read off the text before them. -/

namespace Cfpl.Source

def textOf (pieces : List Piece) : List Char := pieces.flatMap Piece.text

@[simp] theorem textOf_cons (piece : Piece) (pieces : List Piece) :
    textOf (piece :: pieces) = piece.text ++ textOf pieces :=
  List.flatMap_cons

@[simp] theorem textOf_append (front back : List Piece) :
    textOf (front ++ back) = textOf front ++ textOf back :=
  List.flatMap_append

theorem taken_cut (context : Context) (first : Char) (rest : List Char) :
    (cut context first rest).tail <+: rest := by
  have kind := kind_cut context first rest
  generalize cut context first rest = found at kind ⊢
  cases kind with
  | token taken => exact taken
  | blank | lineFeed | unexpected => exact List.nil_prefix
  | comment => exact List.takeWhile_prefix _
  | unclosed => exact List.prefix_refl rest

theorem textOf_piecesFrom (context : Context) (text : List Char) :
    textOf (piecesFrom context text) = text := by
  induction context, text using piecesFrom.induct with
  | case1 context =>
    rw [piecesFrom]
    rfl
  | case2 context first rest found text ih =>
    rw [piecesFrom, textOf_cons]
    exact congrArg (first :: found.tail ++ ·) ih |>.trans
      (congrArg (first :: ·) (List.prefix_iff_eq_append.mp (taken_cut context first rest)))

private theorem line_piecesFrom (context : Context) (text : List Char) :
    ∀ earlier piece later, piecesFrom context text = earlier ++ piece :: later →
      piece.text ≠ [] ∧ piece.line = context.line + lineFeeds (textOf earlier) := by
  induction context, text using piecesFrom.induct with
  | case1 context =>
    intro earlier piece later split
    rw [piecesFrom] at split
    exact absurd split (by simp)
  | case2 context first rest found text ih =>
    intro earlier piece later split
    rw [piecesFrom] at split
    cases earlier with
    | nil =>
      obtain ⟨rfl, _⟩ := List.cons.inj split
      exact ⟨List.cons_ne_nil _ _, rfl⟩
    | cons front earlier =>
      obtain ⟨rfl, behind⟩ := List.cons.inj split
      obtain ⟨some_, line⟩ := ih earlier piece later behind
      refine ⟨some_, ?_⟩
      rw [line, textOf_cons, lineFeeds_append, ← Nat.add_assoc]
      rfl

theorem textOf_pieces (source : String) : textOf (pieces source) = source.toList :=
  textOf_piecesFrom .initial source.toList

private theorem rest_piecesFrom {context : Context} {before text : List Char} {last : Option Symbol}
    {earlier later : List Piece} (fits : context.Fits before last)
    (split : piecesFrom context text = earlier ++ later) :
    ∃ context last, context.Fits (before ++ textOf earlier) last ∧ piecesFrom context (textOf later) = later := by
  induction earlier generalizing context before text last with
  | nil =>
    refine ⟨context, last, ?_, ?_⟩
    · rwa [textOf, List.flatMap_nil, List.append_nil]
    · rw [List.nil_append] at split
      rw [← split, textOf_piecesFrom]
  | cons front earlier ih =>
    cases text with
    | nil =>
      rw [piecesFrom] at split
      cases split
    | cons first rest =>
      rw [piecesFrom] at split
      obtain ⟨rfl, behind⟩ := List.cons.inj split
      rw [textOf_cons, ← List.append_assoc]
      generalize cut context first rest = found at behind
      rcases found with ⟨tail, _ | ⟨symbol, literal⟩, flaws⟩
      · exact ih (fits.after (first :: tail)) behind
      · exact ih (fits.afterToken (first :: tail) symbol literal) behind

theorem rest_of_split {source : String} {earlier later : List Piece} (split : pieces source = earlier ++ later) :
    ∃ context last, context.Fits (textOf earlier) last ∧ piecesFrom context (textOf later) = later :=
  rest_piecesFrom Context.fits_initial split

section Split

variable {source : String} {earlier later : List Piece} {piece : Piece}
  (split : pieces source = earlier ++ piece :: later)
include split

theorem line_of_split : piece.text ≠ [] ∧ piece.line = 1 + lineFeeds (textOf earlier) :=
  line_piecesFrom .initial source.toList earlier piece later split

private theorem lineEnd_of_split :
    1 ≤ piece.line ∧ piece.line + lineFeeds piece.text ≤ 1 + lineFeeds source.toList := by
  rw [(line_of_split split).2, ← textOf_pieces source, split, textOf_append, textOf_cons, lineFeeds_append,
    lineFeeds_append]
  omega

end Split

private theorem lineFeeds_dropLast_le (text : List Char) : lineFeeds text.dropLast ≤ lineFeeds text :=
  (List.dropLast_sublist text).count_le '\n'

private theorem line_of_token? {piece : Piece} {token : Token} (made : piece.token? = some token) :
    token.lexeme = .ofList piece.text ∧ token.line = (piece.line + lineFeeds piece.text.dropLast : Nat) := by
  obtain ⟨⟨symbol, literal⟩, _, rfl⟩ := Option.map_eq_some_iff.mp made
  exact ⟨rfl, by push_cast; rfl⟩

private theorem pairwise_pieces (context : Context) (text : List Char) :
    (piecesFrom context text).Pairwise fun piece next => piece.line + lineFeeds piece.text ≤ next.line := by
  induction context, text using piecesFrom.induct with
  | case1 context =>
    rw [piecesFrom]
    exact .nil
  | case2 context first rest found text ih =>
    rw [piecesFrom]
    refine .cons (fun next member => ?_) ih
    obtain ⟨earlier, later, split⟩ := List.append_of_mem member
    rw [(line_piecesFrom _ _ earlier next later split).2]
    exact Nat.le_add_right _ _

theorem line_of_mem_tokens {source : String} {token : Token} (member : token ∈ tokens source) :
    1 ≤ token.line ∧ token.line ≤ (1 + lineFeeds source.toList : Nat) := by
  rcases List.mem_append.mp member with early | last
  · obtain ⟨piece, listed, made⟩ := List.mem_filterMap.mp early
    obtain ⟨earlier, later, split⟩ := List.append_of_mem listed
    have bounds := lineEnd_of_split split
    have inside := lineFeeds_dropLast_le piece.text
    rw [(line_of_token? made).2]
    omega
  · rw [List.mem_singleton.mp last]
    simp only [endToken]
    omega

theorem line_of_mem_diagnostics {source : String} {diagnostic : Diagnostic}
    (member : diagnostic ∈ diagnostics source) :
    1 ≤ diagnostic.line ∧ diagnostic.line ≤ (1 + lineFeeds source.toList : Nat) := by
  obtain ⟨piece, listed, reported⟩ := List.mem_flatMap.mp member
  obtain ⟨flaw, _, rfl⟩ := List.mem_map.mp reported
  obtain ⟨earlier, later, split⟩ := List.append_of_mem listed
  have bounds := lineEnd_of_split split
  simp only [Diagnostic.onLine]
  omega

theorem pairwise_tokens (source : String) :
    (tokens source).Pairwise fun token next => token.line ≤ next.line := by
  refine List.pairwise_append.mpr ⟨?_, List.pairwise_singleton _ _, ?_⟩
  · refine List.pairwise_filterMap.mpr ((pairwise_pieces .initial source.toList).imp ?_)
    intro piece next follows token made after madeAfter
    have inside := lineFeeds_dropLast_le piece.text
    rw [(line_of_token? made).2, (line_of_token? madeAfter).2]
    omega
  · intro token member last isLast
    rw [List.mem_singleton.mp isLast]
    exact (line_of_mem_tokens (List.mem_append_left _ member)).2

theorem token_of_split {source : String} {earlier later : List Piece} {piece : Piece} {token : Token}
    (split : pieces source = earlier ++ piece :: later) (made : piece.token? = some token) :
    token.lexeme = .ofList piece.text ∧
      token.line = (1 + lineFeeds (textOf earlier ++ piece.text.dropLast) : Nat) := by
  obtain ⟨spelled, line⟩ := line_of_token? made
  refine ⟨spelled, ?_⟩
  rw [line, (line_of_split split).2, lineFeeds_append, Nat.add_assoc]

end Cfpl.Source
