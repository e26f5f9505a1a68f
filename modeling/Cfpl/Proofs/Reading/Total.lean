import Cfpl.Proofs.Reading.Row
import Cfpl.Proofs.Reading.Statement

/-! Every row of tokens that comes to an end is read to its end, and only such a row: what is broken is left
out, and what is left is whole. -/

namespace Cfpl.Program

open Reader

private theorem steady_reader (limit : Nat) : Steady (reader limit) :=
  steady_upTo steady_atEnd (steady_recovering _) limit

private theorem exhausted_of_not_ends {tokens : List Token} {limit : Nat} (covered : tokens.length ≤ limit)
    (open_ : ¬Ends tokens) :
    ∃ reports, reader limit ⟨tokens, []⟩ = .error .exhausted ⟨[], reports⟩ := by
  have feed : (⟨.newline, "\n", none, 0⟩ : Token).symbol = .newline := rfl
  have known := does_reader feed covered []
  have steady := steady_reader limit ⟨tokens, []⟩
  generalize reader limit ⟨tokens, []⟩ = result at known steady ⊢
  cases known with
  | @given taken rest new nodes moved held =>
    obtain ⟨last, first, ends⟩ := held.2
    have member : last ∈ tokens := by
      rw [moved.split]
      exact List.mem_append_right _ (List.mem_of_mem_head? first)
    exact absurd ⟨last, member, ends⟩ open_
  | refused moved reported => exact absurd rfl (steady _)
  | exhausted inside => exact ⟨_, rfl⟩

private theorem ofTokens?_isSome_iff (tokens : List Token) :
    (∃ program, ofTokens? tokens = some program) ↔ Ends tokens := by
  constructor
  · intro found
    obtain ⟨program, read⟩ := found
    refine Classical.byContradiction fun open_ => ?_
    obtain ⟨reports, exhausted⟩ := exhausted_of_not_ends (Nat.le_refl _) open_
    unfold ofTokens? at read
    rw [exhausted] at read
    cases read
  · intro ends
    have feed : (⟨.newline, "\n", none, 0⟩ : Token).symbol = .newline := rfl
    obtain ⟨program, _, _, read, _⟩ := ofTokens?_reads feed ends
    exact ⟨program, read⟩

private theorem areStatements_of_read {tokens : List Token} {program : Program}
    (carried : ∀ token ∈ tokens, carriesLiteral token.symbol → token.literal.isSome)
    (read : ofTokens? tokens = some program) : Node.areStatements program.statements := by
  have ends : Ends tokens := (ofTokens?_isSome_iff tokens).mp ⟨program, read⟩
  have feed : (⟨.newline, "\n", none, 0⟩ : Token).symbol = .newline := rfl
  obtain ⟨found, taken, rest, known, moved, _, lines⟩ := ofTokens?_reads feed ends
  obtain rfl : program = found := Option.some.inj (read.symm.trans known)
  have held : ∀ token, token ∈ taken → carriesLiteral token.symbol → token.literal.isSome := by
    intro token member
    refine carried token ?_
    rw [moved.split]
    exact List.mem_append_left rest member
  exact Node.areStatements_iff.mpr fun node member => (lines.made node member).isStatement held

private theorem ofTokens?_append (front : List Token) {last : Token} (ends : last.symbol = .endOfText)
    (behind other : List Token) :
    ofTokens? (front ++ last :: behind) = ofTokens? (front ++ last :: other) := by
  obtain ⟨count, row⟩ := Row.of_same front ends other behind
  exact readWithin?_same row row.covered.1 row.covered.2

private theorem readWithin?_of_covered {tokens : List Token} {limit : Nat} (covered : tokens.length ≤ limit) :
    readWithin? limit tokens = ofTokens? tokens := by
  by_cases ends : Ends tokens
  · obtain ⟨last, member, symbol⟩ := ends
    obtain ⟨front, behind, rfl⟩ := List.append_of_mem member
    obtain ⟨count, row⟩ := Row.of_same front symbol behind behind
    exact readWithin?_same row row.covered.1 (Nat.le_trans row.covered.2 covered)
  · obtain ⟨reports, exhausted⟩ := exhausted_of_not_ends covered ends
    obtain ⟨others, twin⟩ := exhausted_of_not_ends (Nat.le_refl _) ends
    unfold readWithin? ofTokens?
    rw [exhausted, twin]

/-- Whatever tokens there are, reading them comes to an end, and no limit that covers them changes anything.
It gives a program if one of the tokens ends the text, and this depends on nothing behind the first such
token. Otherwise it runs out of tokens. No statement of the program misses a part. -/
theorem read_of_tokens (tokens : List Token)
    (carried : ∀ token ∈ tokens, carriesLiteral token.symbol → token.literal.isSome) :
    ((∃ program, ofTokens? tokens = some program) ↔ ∃ token ∈ tokens, token.symbol = .endOfText) ∧
      (∀ limit, tokens.length ≤ limit → readWithin? limit tokens = ofTokens? tokens) ∧
      ((¬∃ token ∈ tokens, token.symbol = .endOfText) → ∀ limit, tokens.length ≤ limit →
        ∃ reports, reader limit ⟨tokens, []⟩ = .error .exhausted ⟨[], reports⟩) ∧
      (∀ limit after, reader limit ⟨tokens, []⟩ ≠ .error .broken after) ∧
      (∀ front last behind other, tokens = front ++ last :: behind → last.symbol = .endOfText →
        ofTokens? tokens = ofTokens? (front ++ last :: other)) ∧
      ∀ program, ofTokens? tokens = some program → Node.areStatements program.statements := by
  refine ⟨ofTokens?_isSome_iff tokens, fun _ => readWithin?_of_covered,
    fun open_ _ covered => exhausted_of_not_ends covered open_,
    fun limit => steady_reader limit _, ?_, ?_⟩
  · intro front last behind other split ends
    rw [split]
    exact ofTokens?_append front ends behind other
  · exact fun program read => areStatements_of_read carried read

def brokenRow : List Token :=
  [⟨.ifWord, "IF", none, 1⟩, ⟨.newline, "\n", none, 1⟩, ⟨.outputWord, "OUTPUT:", none, 2⟩,
    ⟨.text, "\"a\"", some (.string "a"), 2⟩, ⟨.endOfText, "", none, 2⟩, ⟨.rightParen, ")", none, 3⟩]

theorem read_of_brokenRow :
    (∀ token ∈ brokenRow, carriesLiteral token.symbol → token.literal.isSome) ∧
      ofTokens? brokenRow = some ⟨[.output (.literal (some (.string "a")))],
        [.atToken ⟨.newline, "\n", none, 1⟩ "Expect '(' after 'IF'."]⟩ ∧
      ofTokens? brokenRow = ofTokens? (brokenRow.take 5) ∧
      Node.areStatements [.output (.literal (some (.string "a")))] := by
  have carried : ∀ token ∈ brokenRow, carriesLiteral token.symbol → token.literal.isSome := by decide
  have read : ofTokens? brokenRow = some ⟨[.output (.literal (some (.string "a")))],
      [.atToken ⟨.newline, "\n", none, 1⟩ "Expect '(' after 'IF'."]⟩ := rfl
  obtain ⟨_, _, _, _, same, whole⟩ := read_of_tokens brokenRow carried
  exact ⟨carried, read, same (brokenRow.take 4) _ _ [] rfl rfl, whole _ read⟩

end Cfpl.Program
