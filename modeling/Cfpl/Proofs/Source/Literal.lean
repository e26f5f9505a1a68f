import Cfpl.Program.Expression
import Cfpl.Proofs.Value.Proper
import Cfpl.Source.Basic

/-! The literals of a program text. Every token of a literal carries a proper value, and the tokens of a
text come to an end. -/

namespace Cfpl

/-- A token of a literal carries a proper value. -/
def Token.Proper (token : Token) : Prop :=
  Program.carriesLiteral token.symbol → ∃ value, token.literal = some value ∧ value.Proper

/-- The literal of a token that stands in a text: there is one if the symbol carries one. -/
def Token.Spelled (token : Token) : Prop :=
  token.literal.isSome = Program.carriesLiteral token.symbol ∧
    ∀ value ∈ token.literal, value.Proper ∧ value.kind ≠ .absent

theorem Token.Spelled.proper {token : Token} (spelled : token.Spelled) : token.Proper := by
  intro carries
  obtain ⟨value, found⟩ := Option.isSome_iff_exists.mp (spelled.1.trans carries)
  exact ⟨value, found, (spelled.2 value found).1⟩

namespace Source

open Program (carriesLiteral)

def Cut.Spelled (cut : Cut) : Prop :=
  ∀ symbol literal, cut.token = some (symbol, literal) →
    literal.isSome = carriesLiteral symbol ∧ ∀ value ∈ literal, value.Proper ∧ value.kind ≠ .absent

namespace Cut.Spelled

theorem literal {tail : List Char} {flaws : List Flaw} {symbol : Symbol} {value : Value}
    (carries : carriesLiteral symbol) (proper : value.Proper) (some_ : value.kind ≠ .absent) :
    Cut.Spelled ⟨tail, some (symbol, some value), flaws⟩ := by
  intro _ _ same
  cases same
  refine ⟨carries.symm, fun _ found => ?_⟩
  cases found
  exact ⟨proper, some_⟩

theorem symbol {tail : List Char} {flaws : List Flaw} {symbol : Symbol} (plain : carriesLiteral symbol = false) :
    Cut.Spelled ⟨tail, some (symbol, none), flaws⟩ := by
  intro _ _ same
  cases same
  exact ⟨plain.symm, nofun⟩

theorem nothing (tail : List Char) (flaws : List Flaw) : Cut.Spelled ⟨tail, none, flaws⟩ := by
  intro _ _ same
  cases same

end Cut.Spelled

private theorem spelled_paired {next : Char} {long short : Symbol} {rest : List Char}
    (plainLong : carriesLiteral long = false) (plainShort : carriesLiteral short = false) :
    (paired next long short rest).Spelled := by
  unfold paired
  split
  · exact .symbol plainLong
  · exact .symbol plainShort

private theorem spelled_string (rest : List Char) : (string rest).Spelled := by
  unfold string
  simp only
  split
  · exact .nothing _ _
  · unfold quotedToken
    split
    · exact .symbol (by decide)
    · split
      · exact .symbol (by decide)
      · split
        · exact .literal (by decide) (Value.proper_character _) (by decide)
        · exact .literal (by decide) trivial (by simp [Value.kind])

private theorem spelled_escape (rest : List Char) : (escape rest).Spelled := by
  unfold escape
  simp only
  split
  · exact .nothing _ _
  · exact .literal (by decide) trivial (by simp [Value.kind])

private theorem spelled_character (rest : List Char) : (character rest).Spelled := by
  unfold character
  simp only
  split
  · exact .nothing _ _
  · exact .literal (by decide) (Value.proper_character _) (by simp [Value.kind])

private theorem spelled_number (first : Char) (rest : List Char) : (number first rest).Spelled := by
  unfold number
  simp only
  split
  · split
    · next found => exact .literal (by decide) (Field.inRange_of_integer? found) (by simp [Value.kind])
    · exact .literal (by decide) (by decide : Integer.InRange 0) (by simp [Value.kind])
  · exact .literal (by decide) trivial (by simp [Value.kind])

private theorem plain_ofWord (word : String) : carriesLiteral (Symbol.ofWord word) = false := by
  have listed : ∀ entry ∈ Symbol.reservedWords, carriesLiteral entry.2 = false := by decide
  rcases Symbol.ofWord_mem word with name | ⟨entry, member, same⟩
  · rw [name]
    rfl
  · rw [← same]
    exact listed entry member

private theorem spelled_cut (context : Context) (first : Char) (rest : List Char) :
    (cut context first rest).Spelled := by
  unfold cut
  split
  case h_11 =>
    split
    · exact .symbol (by decide)
    · exact .nothing _ _
  case h_14 =>
    split
    · exact .symbol (by decide)
    · exact spelled_paired (by decide) (by decide)
  case h_16 =>
    split
    · exact .nothing _ _
    · exact .symbol (by decide)
  case h_20 =>
    split
    · exact .nothing _ _
    · exact .symbol (by decide)
  case h_21 =>
    split
    · exact spelled_escape _
    · exact spelled_string _
  case h_22 => exact .literal (by decide) (Value.proper_character _) (by decide)
  case h_23 => exact spelled_character _
  case h_24 =>
    split
    · exact spelled_number _ _
    · split
      · exact .symbol (plain_ofWord _)
      · exact .nothing _ _
  -- what is left depends on nothing but the first character and the one behind it
  all_goals first
    | exact .symbol (by decide)
    | exact spelled_paired (by decide) (by decide)
    | exact .nothing _ _

private theorem spelled_pieces (context : Context) (text : List Char) :
    ∀ piece ∈ piecesFrom context text, ∀ token, piece.token? = some token → token.Spelled := by
  induction context, text using piecesFrom.induct with
  | case1 context =>
    rw [piecesFrom]
    exact List.forall_mem_nil _
  | case2 context first rest found text ih =>
    rw [piecesFrom]
    intro piece member token made
    rcases List.mem_cons.mp member with rfl | later
    · obtain ⟨⟨symbol, literal⟩, taken, rfl⟩ := Option.map_eq_some_iff.mp made
      exact spelled_cut context first rest symbol literal taken
    · exact ih piece later token made

theorem spelled_tokens (source : String) : ∀ token ∈ tokens source, token.Spelled := by
  intro token member
  rcases List.mem_append.mp member with early | last
  · obtain ⟨piece, listed, made⟩ := List.mem_filterMap.mp early
    exact spelled_pieces .initial source.toList piece listed token made
  · rw [List.mem_singleton.mp last]
    exact ⟨rfl, nofun⟩

theorem proper_tokens (source : String) : ∀ token ∈ tokens source, token.Proper :=
  fun token member => (spelled_tokens source token member).proper

end Source

end Cfpl
