import Cfpl.Proofs.Source.Lines

/-! Stars outside of literals and of comments. One is an operator if a letter, a digit or an underscore stands
before it on its line of the text, and takes what is left of the line with it otherwise. -/

namespace Cfpl.Source

section Tail

variable {context : Context} {first mark : Char} {rest : List Char}

private theorem mem_tail_paired {next : Char} {long short : Symbol}
    (member : mark ∈ (paired next long short rest).tail) :
    mark = next := by
  unfold paired at member
  split at member
  · exact List.mem_singleton.mp member
  · cases member

private theorem mem_fraction (member : mark ∈ fraction rest) : mark = '.' ∨ mark.isDigit := by
  unfold fraction at member
  split at member
  · next behind =>
    simp only at member
    split at member
    · cases member
    · exact (List.mem_cons.mp member).imp_right List.mem_takeWhile_imp
  · cases member

private theorem mem_tail_number (member : mark ∈ (number first rest).tail) : mark = '.' ∨ mark.isDigit := by
  unfold number at member
  simp only at member
  split at member
  · split at member <;> exact .inr (List.mem_takeWhile_imp member)
  · rcases List.mem_append.mp member with digit | place
    · exact .inr (List.mem_takeWhile_imp digit)
    · exact mem_fraction place

private theorem mem_tail_word (member : mark ∈ (word first rest).tail) : mark = ':' ∨ isWordChar mark := by
  rcases List.mem_append.mp member with letter | colon
  · exact .inr (List.mem_takeWhile_imp letter)
  · split at colon
    · exact .inl (List.mem_singleton.mp colon)
    · cases colon

private theorem star_inside (inside : '*' ∈ (cut context first rest).tail) :
    first = '"' ∨ first = '\'' ∨ (first = '/' ∧ rest.head? = some '/') ∨
      (first = '*' ∧ context.word = false) := by
  unfold cut at inside
  split at inside
  case h_11 =>
    split at inside
    · cases inside
    · next alone => exact .inr (.inr (.inr ⟨rfl, by simpa using alone⟩))
  case h_14 =>
    split at inside
    · exact absurd (List.mem_singleton.mp inside) (by decide)
    · exact absurd (mem_tail_paired inside) (by decide)
  case h_16 =>
    split at inside
    · next second => exact .inr (.inr (.inl ⟨rfl, second⟩))
    · cases inside
  case h_20 => split at inside <;> cases inside
  case h_21 => exact .inl rfl
  case h_23 => exact .inr (.inl rfl)
  case h_24 =>
    split at inside
    · rcases mem_tail_number inside with point | digit
      · exact absurd point (by decide)
      · exact absurd digit (by decide)
    · split at inside
      · rcases mem_tail_word inside with colon | letter
        · exact absurd colon (by decide)
        · exact absurd letter (by decide)
      · cases inside
  -- what is left has no tail, or one character that is no star
  all_goals first
    | cases inside
    | exact absurd (mem_tail_paired inside) (by decide)

private theorem cut_star_operator (word : context.word = true) :
    cut context '*' rest = ⟨[], some (.star, none), []⟩ :=
  if_pos word

private theorem cut_star_comment (alone : context.word = false) :
    cut context '*' rest = ⟨restOfLine rest, none, []⟩ :=
  if_neg (by rw [alone]; exact Bool.false_ne_true)

end Tail

private theorem piece_of_mark {all : List Piece} {front behind : List Char} {mark : Char}
    (marked : textOf all = front ++ mark :: behind) :
    ∃ earlier piece later head rest, all = earlier ++ piece :: later ∧ front = textOf earlier ++ head ∧
      piece.text = head ++ mark :: rest := by
  induction all generalizing front with
  | nil => exact absurd marked (by simp [textOf])
  | cons piece later ih =>
    rw [textOf_cons] at marked
    rcases List.append_eq_append_iff.mp marked with ⟨head, whole, others⟩ | ⟨rest, whole, others⟩
    · obtain ⟨earlier, found, later, before, rest, rfl, rfl, inside⟩ := ih others
      refine ⟨piece :: earlier, found, later, before, rest, rfl, ?_, inside⟩
      rw [whole, textOf_cons, List.append_assoc]
    · cases rest with
      | nil =>
        obtain ⟨earlier, found, later, before, rest, rfl, ahead, inside⟩ := @ih [] others.symm
        refine ⟨piece :: earlier, found, later, before, rest, rfl, ?_, inside⟩
        rw [textOf_cons, List.append_assoc, ← ahead, whole, List.append_nil, List.append_nil]
      | cons c rest =>
        obtain ⟨rfl, _⟩ := List.cons.inj others
        exact ⟨[], piece, later, front, rest, rfl, rfl, whole⟩

private theorem covered_of_split {source : String} {earlier later : List Piece} {piece : Piece}
    (split : pieces source = earlier ++ piece :: later) (inside : '*' ∈ piece.text.tail) :
    piece.text.head? = some '"' ∨ piece.text.head? = some '\'' ∨ OpensComment (textOf earlier) piece.text := by
  obtain ⟨context, last, fits, again⟩ := rest_of_split split
  cases text : textOf (piece :: later) with
  | nil =>
    rw [text, piecesFrom] at again
    cases again
  | cons first rest =>
    rw [text, piecesFrom] at again
    obtain ⟨rfl, _⟩ := List.cons.inj again
    rcases star_inside inside with rfl | rfl | opens
    · exact .inl rfl
    · exact .inr (.inl rfl)
    · have taken : (cut context first rest).tail = restOfLine rest := by
        rcases opens with ⟨rfl, second⟩ | ⟨rfl, alone⟩
        · exact congrArg Cut.tail (if_pos second)
        · exact congrArg Cut.tail (cut_star_comment alone)
      simp only [taken]
      exact .inr (.inr (fits.opensComment opens))

/-- Every star of a text stands in a literal or in a comment, or the scan comes to it. It comes to an operator if a
letter, a digit or an underscore stands between the last line feed and the star, wherever these are; and if none
does, nothing becomes of the star and the rest of its line. -/
theorem star_or_comment (source : String) :
    (∀ front behind, source.toList = front ++ '*' :: behind →
      ∃ earlier piece later head rest, pieces source = earlier ++ piece :: later ∧
        front = textOf earlier ++ head ∧ piece.text = head ++ '*' :: rest ∧
        (head = [] ∨ piece.text.head? = some '"' ∨ piece.text.head? = some '\'' ∨
          OpensComment (textOf earlier) piece.text)) ∧
    ∀ earlier later behind, pieces source = earlier ++ later → textOf later = '*' :: behind →
      source.toList = textOf earlier ++ '*' :: behind ∧
      ∃ piece others, later = piece :: others ∧ piece.diagnostics = [] ∧
        ((∃ c ∈ lastLine (textOf earlier), isWordChar c) →
          piece.token? = some ⟨.star, "*", none, (1 + lineFeeds (textOf earlier) : Nat)⟩ ∧
            textOf others = behind) ∧
        ((∀ c ∈ lastLine (textOf earlier), ¬isWordChar c) →
          piece.token? = none ∧ textOf others = behind.dropWhile (· != '\n')) := by
  constructor
  · intro front behind marked
    rw [← textOf_pieces] at marked
    obtain ⟨earlier, piece, later, head, rest, split, whole, inside⟩ := piece_of_mark marked
    refine ⟨earlier, piece, later, head, rest, split, whole, inside, ?_⟩
    cases head with
    | nil => exact .inl rfl
    | cons first head => exact .inr (covered_of_split split (by simp [inside]))
  · intro earlier later behind split text
    obtain ⟨context, last, fits, again⟩ := rest_of_split split
    refine ⟨by rw [← textOf_pieces, split, textOf_append, text], ?_⟩
    rw [text, piecesFrom] at again
    refine ⟨_, _, again.symm, ?_⟩
    rw [textOf_piecesFrom]
    have known : context.word = true ↔ ∃ c ∈ lastLine (textOf earlier), isWordChar c := by
      rw [fits.word, List.any_eq_true]
    cases word : context.word with
    | true =>
      simp only [cut_star_operator word]
      refine ⟨rfl, fun _ => ⟨?_, rfl⟩, fun alone => ?_⟩
      · rw [token?_of_fits fits, List.dropLast_singleton, List.append_nil]
      · obtain ⟨c, before, letter⟩ := known.mp word
        exact absurd letter (alone c before)
    | false =>
      simp only [cut_star_comment word]
      refine ⟨rfl, fun some_ => ?_, fun _ => ⟨rfl, ?_⟩⟩
      · rw [known.mpr some_] at word
        cases word
      · exact List.append_cancel_left ((takeWhile_append_drop _ behind).trans List.takeWhile_append_dropWhile.symm)

/-- The word in front of the literal is on an earlier line than the star behind it, for the literal is broken. -/
def brokenLiteral : String := "OUTPUT: \"a\n*\" * so\nx*2"

theorem stars_of_brokenLiteral :
    (∃ piece others, (pieces brokenLiteral).drop 4 = piece :: others ∧ piece.token? = none ∧
      textOf others = "\nx*2".toList) ∧
      ∃ piece others, (pieces brokenLiteral).drop 7 = piece :: others ∧
        piece.token? = some ⟨.star, "*", none, 3⟩ ∧ textOf others = "2".toList := by
  obtain ⟨whole, remark, behind, splitRemark, _, _, comment⟩ := (star_or_comment brokenLiteral).2 _ _
    " so\nx*2".toList (List.take_append_drop 4 _).symm (by decide +kernel)
  have front : textOf ((pieces brokenLiteral).take 4) = "OUTPUT: \"a\n*\" ".toList :=
    List.append_cancel_right (whole.symm.trans (by decide +kernel))
  have alone : ∀ c ∈ lastLine "OUTPUT: \"a\n*\" ".toList, ¬isWordChar c := by
    simp [lastLine, List.rtakeWhile, isWordChar, isLetter]
  rw [front] at comment
  obtain ⟨whole, star, others, splitStar, _, operator, _⟩ := (star_or_comment brokenLiteral).2 _ _
    "2".toList (List.take_append_drop 7 _).symm (by decide +kernel)
  have front : textOf ((pieces brokenLiteral).take 7) = "OUTPUT: \"a\n*\" * so\nx".toList :=
    List.append_cancel_right (whole.symm.trans (by decide +kernel))
  have operand : ∃ c ∈ lastLine "OUTPUT: \"a\n*\" * so\nx".toList, isWordChar c :=
    ⟨'x', by decide, rfl⟩
  rw [front] at operator
  exact ⟨⟨remark, behind, splitRemark, comment alone⟩, star, others, splitStar, operator operand⟩

end Cfpl.Source
