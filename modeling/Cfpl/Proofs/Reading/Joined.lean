import Cfpl.Proofs.Reading.Derived
import Cfpl.Proofs.Reading.Row

/-! Two rows of tokens that are read without a report, one behind the other. If the first ends with a line
feed, no statement goes on from it into the second, so what is read is what is read from each. -/

namespace Cfpl.Program

open Reader Grammar

def EndsOpen (tokens : List Token) : Prop := ∃ last ∈ tokens.getLast?, last.symbol ≠ .newline

def EndsFed (tokens : List Token) : Prop := ∃ front feed, tokens = front ++ [feed] ∧ EndsOpen front

section Ends

variable {tokens : List Token}

private theorem EndsOpen.concat (front : List Token) {last : Token} (open_ : last.symbol ≠ .newline) :
    EndsOpen (front ++ [last]) :=
  ⟨last, List.getLast?_concat, open_⟩

theorem EndsOpen.behind (ends : EndsOpen tokens) (front : List Token) : EndsOpen (front ++ tokens) := by
  obtain ⟨last, found, open_⟩ := ends
  exact ⟨last, by rw [List.getLast?_append, Option.mem_def.mp found]; rfl, open_⟩

theorem EndsOpen.fed (ends : EndsOpen tokens) (feed : Token) : EndsFed (tokens ++ [feed]) :=
  ⟨tokens, feed, rfl, ends⟩

theorem EndsFed.behind (ends : EndsFed tokens) (front : List Token) : EndsFed (front ++ tokens) := by
  obtain ⟨rest, feed, rfl, open_⟩ := ends
  exact ⟨front ++ rest, feed, (List.append_assoc _ _ _).symm, open_.behind front⟩

theorem EndsOpen.cons (ends : EndsOpen tokens) (first : Token) : EndsOpen (first :: tokens) :=
  ends.behind [first]

theorem EndsFed.cons (ends : EndsFed tokens) (first : Token) : EndsFed (first :: tokens) :=
  ends.behind [first]

private theorem endsOpen_of_derived {level : Level} {node : Node} (derived : Expression level tokens node) :
    EndsOpen tokens := by
  have alone {token : Token} (open_ : token.symbol ≠ .newline) : EndsOpen [token] := .concat [] open_
  induction derived with
  | stronger _ ih => exact ih
  | assign _ _ _ ih => exact (ih.cons _).cons _
  | joined _ _ _ _ ih => exact (ih.cons _).behind _
  | unary _ _ ih => exact ih.cons _
  | truth symbol => exact alone (by rw [symbol]; decide)
  | falsehood symbol => exact alone (by rw [symbol]; decide)
  | literal symbol => exact alone fun feed => by simp [feed] at symbol
  | reference symbol => exact alone (by rw [symbol]; decide)
  | grouping _ closes _ _ => exact .concat _ (by rw [closes]; decide)

private theorem endsOpen_of_names {names : List Token} (derived : Names tokens names) : EndsOpen tokens := by
  induction derived with
  | single symbol => exact .concat [] (by rw [symbol]; decide)
  | more _ _ _ ih => exact (ih.cons _).cons _

private theorem endsOpen_of_declarations {nodes : List Node} (typed : Declarations tokens nodes) :
    EndsOpen tokens := by
  cases typed with
  | @typed word asWord dataType tokens items _ _ isType _ =>
    have open_ : dataType.symbol ≠ .newline := fun feed => by simp [feed, Symbol.isDataType] at isType
    have last : EndsOpen [asWord, dataType] := .concat [asWord] open_
    exact last.behind (word :: tokens)

private theorem endsFed_of_statement {far : Prop} {takes : Bool} {tokens : List Token} {node : Node} :
    Statement far takes tokens node → EndsFed tokens
  | .expression derived _ => (endsOpen_of_derived derived).fed _
  | .output _ derived _ => ((endsOpen_of_derived derived).cons _).fed _
  | .input _ names _ => ((endsOpen_of_names names).cons _).fed _
  | @Statement.block _ word newline stop last tokens _ _ _ _ isStop _ => by
    have open_ : EndsOpen [stop] := .concat [] (by rw [isStop]; decide)
    exact (open_.fed last).behind (word :: newline :: tokens)
  | .branch _ _ _ _ _ body => (((endsFed_of_statement body).cons _).cons _).behind _
  | .branchElse _ _ _ _ _ _ _ _ _ last => (((endsFed_of_statement last).cons _).cons _).behind _
  | .loop _ _ _ _ _ body => (((endsFed_of_statement body).cons _).cons _).behind _
  | .counting _ _ _ _ _ _ _ _ body => (((endsFed_of_statement body).cons _).cons _).behind _

private theorem endsFed_of_lines {far : Prop} {tokens : List Token} {nodes : List Node} :
    Lines far tokens nodes → tokens ≠ [] → EndsFed tokens
  | .done => fun some_ => absurd rfl some_
  | @Lines.declarations _ tokens rest newline _ _ typed _ lines => fun _ => by
    by_cases none : rest = []
    · subst none
      exact (endsOpen_of_declarations typed).fed newline
    · exact ((endsFed_of_lines lines none).cons newline).behind tokens
  | @Lines.statement _ tokens rest _ _ _ derived lines => fun _ => by
    by_cases none : rest = []
    · rw [none, List.append_nil]
      exact endsFed_of_statement derived
    · exact (endsFed_of_lines lines none).behind tokens

end Ends

private theorem lines_append {far : Prop} {second : List Token} {others : List Node}
    (behind : Lines far second others) {first : List Token} {nodes : List Node} :
    Lines far first nodes → Lines far (first ++ second) (nodes ++ others)
  | .done => behind
  | .declarations typed isFeed lines => by
    rw [List.append_assoc, List.append_assoc]
    exact .declarations typed isFeed (lines_append behind lines)
  | .statement derived lines => by
    rw [List.append_assoc]
    exact .statement derived (lines_append behind lines)

section Joined

variable {newline last : Token} {tokens : List Token} {nodes : List Node}

private theorem lines_of_fed (fed : ∀ token ∈ tokens.getLast?, token.symbol = .newline)
    (derived : Derived False newline tokens nodes) : Lines False tokens nodes := by
  rcases derived with whole | more
  · exact whole
  · obtain ⟨front, feed, split, last, found, open_⟩ := endsFed_of_lines more (by simp)
    obtain ⟨rfl, _⟩ := List.append_inj' split rfl
    exact absurd (fed last found) open_

private theorem derived_of_read (feed : newline.symbol = .newline) (finished : last.symbol = .endOfText)
    (inside : Inside tokens) (read : ofTokens? (tokens ++ [last]) = some ⟨nodes, []⟩) :
    Derived False newline tokens nodes := by
  have ends : Ends (tokens ++ [last]) :=
    ⟨last, List.mem_append_right _ (List.mem_singleton.mpr rfl), finished⟩
  obtain ⟨program, taken, rest, found, moved, ended, lines⟩ := ofTokens?_reads feed ends
  obtain ⟨rfl, rfl⟩ := taken_of_atEnd inside finished moved ended
  obtain rfl : program = ⟨nodes, []⟩ := Option.some.inj (found.symm.trans read)
  obtain ⟨full, rfl | ⟨rfl, _⟩, derived, _⟩ := lines.derived rfl
  · exact .inl derived
  · exact .inr derived

theorem ofTokens?_joined {first second : List Token} {others : List Node} {end_ : Token}
    (insideFirst : Inside first) (insideSecond : Inside second)
    (fed : ∀ token ∈ first.getLast?, token.symbol = .newline) (finishedFirst : end_.symbol = .endOfText)
    (finished : last.symbol = .endOfText) (readFirst : ofTokens? (first ++ [end_]) = some ⟨nodes, []⟩)
    (readSecond : ofTokens? (second ++ [last]) = some ⟨others, []⟩) :
    ofTokens? (first ++ (second ++ [last])) = some ⟨nodes ++ others, []⟩ := by
  have feed : (⟨.newline, "\n", none, 0⟩ : Token).symbol = .newline := rfl
  have front : Lines False first nodes :=
    lines_of_fed fed (derived_of_read feed finishedFirst insideFirst readFirst)
  have ended : AtEnd [last] := ⟨last, rfl, finished⟩
  rw [← List.append_assoc]
  rcases derived_of_read feed finished insideSecond readSecond with whole | more
  · exact ofTokens?_of_lines feed finished (.inl rfl) (lines_append whole front)
  · have lines := lines_append more front
    rw [← List.append_assoc] at lines
    exact ofTokens?_of_lines feed finished (.inr ⟨rfl, ended⟩) lines

theorem inside_shift (inside : Inside tokens) (lines : Int) : Inside (tokens.map (Token.shift lines)) := by
  intro token member
  obtain ⟨other, held, rfl⟩ := List.mem_map.mp member
  exact inside other held

theorem ofTokens?_shift (lines : Int) (finished : last.symbol = .endOfText)
    (read : ofTokens? (tokens ++ [last]) = some ⟨nodes, []⟩) :
    ofTokens? (tokens.map (Token.shift lines) ++ [last.shift lines]) =
      some ⟨Node.shiftAll lines nodes, []⟩ := by
  obtain ⟨count, row⟩ := Row.of_append lines tokens finished [] []
  rw [ofTokens?_row row, read, Node.shiftAll_eq_map]
  rfl

end Joined

end Cfpl.Program
