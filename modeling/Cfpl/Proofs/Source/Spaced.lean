import Cfpl.Proofs.Source.Recut
import Cfpl.Source.Layout

/-! A text without a flaw and the text that spells its tokens with single blanks between them have the same
tokens, up to their lines. So comments, empty lines and the amount of blanks mean nothing, and the second text
is a normal form of the first. -/

namespace Cfpl.Source

section Context

private theorem wordAfter_mono {word other : Bool} (less : word = true → other = true) (text : List Char) :
    Context.wordAfter word text = true → Context.wordAfter other text = true := by
  induction text generalizing word other with
  | nil => exact less
  | cons c text ih =>
    unfold Context.wordAfter
    rw [List.foldl_cons, List.foldl_cons]
    refine ih ?_
    split
    · exact id
    · simp only [Bool.or_eq_true]
      exact Or.imp_left less

/-- Where one text goes on, a star is an operator if it is one where the other goes on. A comment may have made
a difference, but then the line ends behind it. -/
structure Context.Alike (context other : Context) (text : List Char) : Prop where
  starts : other.lineStart = context.lineStart
  word : (context.word = true → other.word = true) ∨ text = [] ∨ text.head? = some '\n'

variable {context other : Context} {first : Char} {rest : List Char}

theorem Context.Alike.operand (alike : context.Alike other (first :: rest)) (sameLine : first ≠ '\n') :
    context.word = true → other.word = true := by
  rcases alike.word with less | none | ends
  · exact less
  · cases none
  · exact absurd (Option.some.inj ends) sameLine

theorem Context.Alike.after (alike : context.Alike other (first :: rest)) (tail left : List Char)
    (token : Symbol × Option Value) :
    (context.after (first :: tail) (some token)).Alike (other.after (first :: tail) (some token)) left where
  starts := rfl
  word := by
    by_cases ends : first = '\n'
    · subst ends
      exact .inl id
    · exact .inl (wordAfter_mono (alike.operand ends) (first :: tail))

theorem Context.Alike.spaced (alike : context.Alike other rest) :
    context.Alike (other.after [' '] none) rest where
  starts := alike.starts
  word := alike.word.imp_left fun less word => by
    show (other.word || isWordChar ' ') = true
    rw [less word]
    rfl

private theorem Context.Alike.skip (alike : context.Alike other (first :: rest)) (plain : ¬isWordChar first) :
    (context.after [first] none).Alike other rest where
  starts := alike.starts
  word := by
    by_cases ends : first = '\n'
    · subst ends
      exact .inl fun word => nomatch word
    · refine .inl fun word => alike.operand ends ?_
      unfold Context.after Context.wordAfter at word
      simpa [ends, plain] using word

end Context

namespace Piece

def content? (piece : Piece) : Option (Symbol × String × Option Value) :=
  piece.token.map fun (symbol, literal) => (symbol, .ofList piece.text, literal)

def spelling? (piece : Piece) : Option (List Char) := piece.token.map fun _ => piece.text

private theorem content?_eq (piece : Piece) : piece.token?.map Token.content = piece.content? := by
  unfold token? content?
  rw [Option.map_map]
  rfl

private theorem spelling?_eq (piece : Piece) : piece.token?.map (String.toList ∘ Token.lexeme) = piece.spelling? := by
  unfold token? spelling?
  rw [Option.map_map]
  congr 1
  funext _
  exact String.toList_ofList

end Piece

def spellings (pieces : List Piece) : List (List Char) := pieces.filterMap Piece.spelling?

/-- The pieces are without a flaw and speak like this. -/
structure Speaks (pieces : List Piece) (contents : List (Symbol × String × Option Value)) : Prop where
  contents : pieces.filterMap Piece.content? = contents
  unflawed : ∀ piece ∈ pieces, piece.flaws = []

def joined (words : List (List Char)) : List Char := [' '].intercalate words

def gapBefore (words : List (List Char)) : List Char := if words = [] then [] else ' ' :: joined words

theorem joined_cons (word : List Char) (words : List (List Char)) :
    joined (word :: words) = word ++ gapBefore words := by
  unfold joined gapBefore
  split
  · next none => rw [none, List.intercalate_singleton, List.append_nil]
  · next some_ =>
    rw [List.intercalate_cons_of_ne_nil some_, List.append_assoc]
    rfl

private theorem gap_gapBefore (words : List (List Char)) : Gap (gapBefore words) := by
  intro c first
  unfold gapBefore at first
  split at first <;> cases first
  rfl

section Spellings

variable {piece : Piece} {pieces : List Piece}

private theorem spellings_spoken {token : Symbol × Option Value} (made : piece.token = some token) :
    spellings (piece :: pieces) = piece.text :: spellings pieces :=
  List.filterMap_cons_some (by rw [Piece.spelling?, made]; rfl)

private theorem spellings_silent (silent : piece.token = none) : spellings (piece :: pieces) = spellings pieces :=
  List.filterMap_cons_none (by rw [Piece.spelling?, silent]; rfl)

private theorem contents_silent (silent : piece.token = none) :
    (piece :: pieces).filterMap Piece.content? = pieces.filterMap Piece.content? :=
  List.filterMap_cons_none (by rw [Piece.content?, silent]; rfl)

end Spellings

section Speaks

variable {pieces : List Piece} {said : List (Symbol × String × Option Value)}

theorem Speaks.cons {piece : Piece} {content : Symbol × String × Option Value} (speaks : Speaks pieces said)
    (made : piece.content? = some content) (unflawed : piece.flaws = []) :
    Speaks (piece :: pieces) (content :: said) where
  contents := by rw [List.filterMap_cons_some made, speaks.contents]
  unflawed := List.forall_mem_cons.mpr ⟨unflawed, speaks.unflawed⟩

private theorem Speaks.skip {piece : Piece} (speaks : Speaks pieces said) (silent : piece.token = none)
    (unflawed : piece.flaws = []) : Speaks (piece :: pieces) said where
  contents := by rw [contents_silent silent, speaks.contents]
  unflawed := List.forall_mem_cons.mpr ⟨unflawed, speaks.unflawed⟩

theorem Speaks.token {context : Context} {first : Char} {tail left : List Char} {symbol : Symbol}
    {literal : Option Value} (made : cut context first (tail ++ left) = ⟨tail, some (symbol, literal), []⟩)
    (speaks : Speaks (piecesFrom (context.after (first :: tail) (some (symbol, literal))) left) said) :
    Speaks (piecesFrom context (first :: tail ++ left)) ((symbol, .ofList (first :: tail), literal) :: said) := by
  have split : (cut context first (tail ++ left)).tail ++ left = tail ++ left := by rw [made]
  rw [List.cons_append, piecesFrom_cons context first split, firstPiece, made]
  exact speaks.cons rfl rfl

theorem Speaks.blank {context : Context} {left : List Char}
    (speaks : Speaks (piecesFrom (context.after [' '] none) left) said) :
    Speaks (piecesFrom context (' ' :: left)) said := by
  rw [piecesFrom_cons context ' ' rfl]
  exact speaks.skip rfl rfl

private theorem speaks_gapBefore {context : Context} {words : List (List Char)}
    (speaks : Speaks (piecesFrom (context.after [' '] none) (joined words)) said) :
    Speaks (piecesFrom context (gapBefore words)) said := by
  unfold gapBefore
  split
  · next none =>
    subst none
    rw [show joined [] = [] from rfl, piecesFrom] at speaks
    rw [piecesFrom]
    exact speaks
  · exact speaks.blank

end Speaks

private theorem speaks_joined (context : Context) (text : List Char) :
    ∀ other, (∀ piece ∈ piecesFrom context text, piece.flaws = []) → context.Alike other text →
      ∀ ending, ending = [] ∨ ending = [[]] →
        Speaks (piecesFrom other (joined (spellings (piecesFrom context text) ++ ending)))
          ((piecesFrom context text).filterMap Piece.content?) := by
  induction context, text using piecesFrom.induct with
  | case1 context =>
    intro other _ _ ending ends
    have nothing : joined ending = [] := by rcases ends with rfl | rfl <;> rfl
    rw [piecesFrom, spellings, List.filterMap_nil, List.filterMap_nil, List.nil_append, nothing, piecesFrom]
    exact ⟨rfl, List.forall_mem_nil _⟩
  | case2 context first rest found text ih =>
    intro other unflawed alike ending ends
    have kind := kind_cut context first rest
    have taken := taken_cut context first rest
    rw [piecesFrom] at unflawed ⊢
    simp only [text, found] at ih ⊢
    obtain ⟨unflawedFirst, unflawedRest⟩ := List.forall_mem_cons.mp unflawed
    clear text found
    generalize made : cut context first rest = found at kind taken ih unflawedFirst unflawedRest ⊢
    cases kind with
    | @token _ _ tail symbol literal flaws _ inText endsLine own =>
      obtain rfl : flaws = [] := unflawedFirst
      obtain ⟨left, rfl⟩ := taken
      rw [List.drop_left] at ih unflawedRest ⊢
      have content : Piece.content? ⟨first :: tail, context.line, some (symbol, literal), []⟩ =
          some (symbol, .ofList (first :: tail), literal) := rfl
      have behind := ih ((other.after (first :: tail) (some (symbol, literal))).after [' '] none) unflawedRest
        (alike.after tail left (symbol, literal)).spaced ending ends
      rw [spellings_spoken rfl, List.cons_append, joined_cons, List.filterMap_cons_some content]
      generalize spellings (piecesFrom _ left) ++ ending = words at behind ⊢
      have again : cut other first (tail ++ gapBefore words) = ⟨tail, some (symbol, literal), []⟩ := by
        refine cut_again made alike.starts (fun star => alike.operand ?_) (gap_gapBefore words)
        rw [star]
        decide
      exact (speaks_gapBefore behind).token again
    | blank white =>
      rw [spellings_silent rfl, contents_silent rfl]
      refine ih other unflawedRest (alike.skip ?_) ending ends
      rcases white with rfl | rfl | rfl <;> decide
    | lineFeed endsNothing =>
      rw [spellings_silent rfl, contents_silent rfl]
      exact ih other unflawedRest (alike.skip (by decide)) ending ends
    | comment opens =>
      rw [spellings_silent rfl, contents_silent rfl]
      exact ih other unflawedRest ⟨alike.starts, .inr (whole_restOfLine rest)⟩ ending ends
    | unexpected | unclosed => cases unflawedFirst

section Texts

private theorem toList_spaced (row : List Token) :
    (Token.spaced row).toList = joined (row.map (String.toList ∘ Token.lexeme)) := by
  rw [Token.spaced, String.toList_intercalate, List.map_map]
  rfl

private theorem spellings_pieces (pieces : List Piece) :
    (pieces.filterMap Piece.token?).map (String.toList ∘ Token.lexeme) = spellings pieces := by
  rw [List.map_filterMap]
  exact List.filterMap_congr fun piece _ => piece.spelling?_eq

theorem contents_eq (source : String) :
    contents source = (pieces source).filterMap Piece.content? ++ [(.endOfText, "", none)] := by
  unfold contents tokens
  rw [List.map_append, List.map_filterMap]
  congr 1
  exact List.filterMap_congr fun piece _ => piece.content?_eq

private theorem dropLast_tokens (source : String) :
    (tokens source).dropLast = (pieces source).filterMap Piece.token? :=
  List.dropLast_concat

private theorem unflawed_of_quiet {source : String} (quiet : diagnostics source = []) :
    ∀ piece ∈ pieces source, piece.flaws = [] :=
  fun piece member => List.map_eq_nil_iff.mp (List.flatMap_eq_nil_iff.mp quiet piece member)

theorem quiet_of_unflawed {source : String} (unflawed : ∀ piece ∈ pieces source, piece.flaws = []) :
    diagnostics source = [] := by
  refine List.flatMap_eq_nil_iff.mpr fun piece member => ?_
  rw [Piece.diagnostics, unflawed piece member]
  rfl

private theorem contents_of_spaced {source : String} (quiet : diagnostics source = []) {row : List Token}
    (whole : row ∈ [tokens source, (tokens source).dropLast]) :
    diagnostics (Token.spaced row) = [] ∧ contents (Token.spaced row) = contents source := by
  obtain ⟨ending, ends, words⟩ : ∃ ending, (ending = [] ∨ ending = [[]]) ∧
      row.map (String.toList ∘ Token.lexeme) = spellings (pieces source) ++ ending := by
    rcases List.mem_pair.mp whole with rfl | rfl
    · exact ⟨[[]], .inr rfl, by rw [tokens, List.map_append, spellings_pieces]; rfl⟩
    · exact ⟨[], .inl rfl, by rw [dropLast_tokens, spellings_pieces, List.append_nil]⟩
  have speaks : Speaks (pieces (Token.spaced row)) ((pieces source).filterMap Piece.content?) := by
    unfold pieces
    rw [toList_spaced, words]
    exact speaks_joined .initial source.toList .initial (unflawed_of_quiet quiet) ⟨rfl, .inl id⟩ ending ends
  exact ⟨quiet_of_unflawed speaks.unflawed, by rw [contents_eq, contents_eq, speaks.contents]⟩

private theorem lexemes_congr {first second : String} (same : contents first = contents second) :
    (tokens first).map Token.lexeme = (tokens second).map Token.lexeme := by
  have read (source : String) : (contents source).map (·.2.1) = (tokens source).map Token.lexeme := by
    unfold contents
    rw [List.map_map]
    rfl
  rw [← read, ← read, same]

private theorem spaced_congr {first second : String} (same : contents first = contents second) :
    Token.spaced (tokens first) = Token.spaced (tokens second) ∧
      Token.spaced (tokens first).dropLast = Token.spaced (tokens second).dropLast := by
  unfold Token.spaced
  rw [List.map_dropLast, List.map_dropLast, lexemes_congr same]
  exact ⟨rfl, rfl⟩

end Texts

/-- The lexemes of a text without a flaw, spelled with single blanks between them, are read as the same tokens
on other lines, and spelling these again changes nothing. So two such texts have the same tokens, up to their
lines, exactly if they are spelled like this in the same way. -/
theorem spaced_reads_alike {source : String} (quiet : diagnostics source = []) :
    (∀ row ∈ [tokens source, (tokens source).dropLast],
      diagnostics (Token.spaced row) = [] ∧ contents (Token.spaced row) = contents source ∧
        Token.spaced (tokens (Token.spaced row)) = Token.spaced (tokens source) ∧
        Token.spaced (tokens (Token.spaced row)).dropLast = Token.spaced (tokens source).dropLast) ∧
      ∀ other, diagnostics other = [] →
        (Token.spaced (tokens other) = Token.spaced (tokens source) ↔ contents other = contents source) := by
  refine ⟨fun row whole => ?_, fun other quietOther => ⟨fun same => ?_, fun same => (spaced_congr same).1⟩⟩
  · obtain ⟨unflawed, same⟩ := contents_of_spaced quiet whole
    exact ⟨unflawed, same, spaced_congr same⟩
  · have whole (text : String) : tokens text ∈ [tokens text, (tokens text).dropLast] := .head _
    rw [← (contents_of_spaced quietOther (whole other)).2, same, (contents_of_spaced quiet (whole source)).2]

def crowded : String := "\n * so\nOUTPUT:\"a\nb\"*2--x & \"[]]\"&\"#\"// so\n\n\t\"TRUE\"'*'1.50 *y\n* so"

theorem crowded_reads_alike :
    diagnostics crowded = [] ∧
      Token.spaced (tokens crowded).dropLast =
        "OUTPUT: \"a\nb\" * 2 -- x & \"[]]\" & \"#\" \n \"TRUE\" '*' 1.50 * y \n" ∧
      contents (Token.spaced (tokens crowded).dropLast) = contents crowded := by
  have quiet : diagnostics crowded = [] := by decide +kernel
  have spelled : Token.spaced (tokens crowded).dropLast =
      "OUTPUT: \"a\nb\" * 2 -- x & \"[]]\" & \"#\" \n \"TRUE\" '*' 1.50 * y \n" := by decide +kernel
  exact ⟨quiet, spelled, ((spaced_reads_alike quiet).1 _ (.tail _ (.head _))).2.1⟩

end Cfpl.Source
