import Cfpl.Proofs.Reading.CompleteLines

/-! A program is read without a report if and only if its tokens are derived from the grammar. The grammar
that lets an `ELSE` belong to any condition before it derives the same rows as the one in which it belongs
to the nearest; the statements are those of the latter. -/

namespace Cfpl.Program

open Reader Grammar

variable {newline last : Token} {tokens : List Token} {nodes : List Node}

mutual

private theorem anyStatement {takes : Bool} {tokens : List Token} {node : Node} :
    Statement False takes tokens node → Statement True takes tokens node
  | .expression derived isFeed => .expression derived isFeed
  | .output isOutput derived isFeed => .output isOutput derived isFeed
  | .input isInput names isFeed => .input isInput names isFeed
  | .block isStart isFeed lines isStop isLast => .block isStart isFeed (anyLines lines) isStop isLast
  | .branch isIf opens derived closes isFeed body =>
    .branch isIf opens derived closes isFeed (anyStatement body)
  | .branchElse isIf opens derived closes isFeed body _ isElse isElseFeed last =>
    .branchElse isIf opens derived closes isFeed (anyStatement body) (fun _ => trivial) isElse isElseFeed
      (anyStatement last)
  | .loop isWhile opens derived closes isFeed body =>
    .loop isWhile opens derived closes isFeed (anyStatement body)
  | .counting isFor opens starts tests isSemicolon steps closes isFeed body =>
    .counting isFor opens starts tests isSemicolon steps closes isFeed (anyStatement body)

private theorem anyLines {tokens : List Token} {nodes : List Node} :
    Lines False tokens nodes → Lines True tokens nodes
  | .done => .done
  | .declarations typed isFeed lines => .declarations typed isFeed (anyLines lines)
  | .statement derived lines => .statement (anyStatement derived) (anyLines lines)

end

/-- The row is a statement in which each `ELSE` belongs to the nearest condition. -/
def NearStatement (tokens : List Token) : Prop := ∃ takes node, Statement False takes tokens node

section Branch

variable {word opening closing feed elseWord elseFeed : Token} {bodyTokens elseTokens : List Token}
  {condition body : Node}

theorem NearStatement.branchElse {takes : Bool} (isIf : word.symbol = .ifWord)
    (opens : opening.symbol = .leftParen) (derived : Expression .assignment tokens condition)
    (closes : closing.symbol = .rightParen) (isFeed : feed.symbol = .newline)
    (read : Statement False takes bodyTokens body) (isElse : elseWord.symbol = .elseWord)
    (isElseFeed : elseFeed.symbol = .newline) (last : NearStatement elseTokens)
    (longer : takes → NearStatement (bodyTokens ++ elseWord :: elseFeed :: elseTokens)) :
    NearStatement (word :: opening :: tokens ++ closing :: feed :: bodyTokens ++
      elseWord :: elseFeed :: elseTokens) := by
  cases takes with
  | false =>
    obtain ⟨elseTakes, elseBranch, last⟩ := last
    exact ⟨_, _, .branchElse isIf opens derived closes isFeed read Bool.false_ne_true isElse isElseFeed last⟩
  | true =>
    obtain ⟨_, _, whole⟩ := longer rfl
    have whole := Statement.branch isIf opens derived closes isFeed whole
    exact ⟨_, _, by simpa using whole⟩

private theorem nearStatement_withElse (isElse : elseWord.symbol = .elseWord)
    (isElseFeed : elseFeed.symbol = .newline) (last : NearStatement elseTokens) {takes : Bool}
    {tokens : List Token} {node : Node} : Statement False takes tokens node → takes →
      NearStatement (tokens ++ elseWord :: elseFeed :: elseTokens)
  | .expression _ _ | .output _ _ _ | .input _ _ _ | .block _ _ _ _ _ =>
    fun taking => absurd taking Bool.false_ne_true
  | .branch isIf opens derived closes isFeed body => fun _ =>
    .branchElse isIf opens derived closes isFeed body isElse isElseFeed last
      (nearStatement_withElse isElse isElseFeed last body)
  | .branchElse isIf opens derived closes isFeed body near isInner isInnerFeed inner => fun taking => by
    obtain ⟨_, _, whole⟩ := nearStatement_withElse isElse isElseFeed last inner taking
    have whole := Statement.branchElse isIf opens derived closes isFeed body near isInner isInnerFeed whole
    exact ⟨_, _, by simpa using whole⟩
  | .loop isWhile opens derived closes isFeed body => fun taking => by
    obtain ⟨_, _, whole⟩ := nearStatement_withElse isElse isElseFeed last body taking
    have whole := Statement.loop isWhile opens derived closes isFeed whole
    exact ⟨_, _, by simpa using whole⟩
  | .counting isFor opens starts tests isSemicolon steps closes isFeed body => fun taking => by
    obtain ⟨_, _, whole⟩ := nearStatement_withElse isElse isElseFeed last body taking
    have whole := Statement.counting isFor opens starts tests isSemicolon steps closes isFeed whole
    exact ⟨_, _, by simpa using whole⟩

end Branch

mutual

private theorem nearStatement {takes : Bool} {tokens : List Token} {node : Node} :
    Statement True takes tokens node → NearStatement tokens
  | .expression derived isFeed => ⟨_, _, .expression derived isFeed⟩
  | .output isOutput derived isFeed => ⟨_, _, .output isOutput derived isFeed⟩
  | .input isInput names isFeed => ⟨_, _, .input isInput names isFeed⟩
  | .block isStart isFeed lines isStop isLast => by
    obtain ⟨_, lines⟩ := nearLines lines
    exact ⟨_, _, .block isStart isFeed lines isStop isLast⟩
  | .branch isIf opens derived closes isFeed body => by
    obtain ⟨_, _, body⟩ := nearStatement body
    exact ⟨_, _, .branch isIf opens derived closes isFeed body⟩
  | .branchElse isIf opens derived closes isFeed body _ isElse isElseFeed last => by
    obtain ⟨_, _, body⟩ := nearStatement body
    have last := nearStatement last
    exact .branchElse isIf opens derived closes isFeed body isElse isElseFeed last
      (nearStatement_withElse isElse isElseFeed last body)
  | .loop isWhile opens derived closes isFeed body => by
    obtain ⟨_, _, body⟩ := nearStatement body
    exact ⟨_, _, .loop isWhile opens derived closes isFeed body⟩
  | .counting isFor opens starts tests isSemicolon steps closes isFeed body => by
    obtain ⟨_, _, body⟩ := nearStatement body
    exact ⟨_, _, .counting isFor opens starts tests isSemicolon steps closes isFeed body⟩

private theorem nearLines {tokens : List Token} {nodes : List Node} :
    Lines True tokens nodes → ∃ nodes, Lines False tokens nodes
  | .done => ⟨[], .done⟩
  | .declarations typed isFeed lines => by
    obtain ⟨_, lines⟩ := nearLines lines
    exact ⟨_, .declarations typed isFeed lines⟩
  | .statement derived lines => by
    obtain ⟨_, _, derived⟩ := nearStatement derived
    obtain ⟨_, lines⟩ := nearLines lines
    exact ⟨_, .statement derived lines⟩

end

/-- The row, or the row with a line feed behind it, is derived as these statements. -/
def Derived (far : Prop) (newline : Token) (tokens : List Token) (nodes : List Node) : Prop :=
  Lines far tokens nodes ∨ Lines far (tokens ++ [newline]) nodes

private theorem derived_any_iff_near : (∃ nodes, Derived True newline tokens nodes) ↔
    ∃ nodes, Derived False newline tokens nodes := by
  constructor
  · intro read
    obtain ⟨_, whole | fed⟩ := read
    · exact (nearLines whole).imp fun _ => .inl
    · exact (nearLines fed).imp fun _ => .inr
  · intro read
    obtain ⟨nodes, whole | fed⟩ := read
    · exact ⟨nodes, .inl (anyLines whole)⟩
    · exact ⟨nodes, .inr (anyLines fed)⟩

theorem taken_of_atEnd {taken rest : List Token} (inside : Inside tokens)
    (finished : last.symbol = .endOfText) (moved : Taken (tokens ++ [last]) taken rest) (ended : AtEnd rest) :
    taken = tokens ∧ rest = [last] := by
  induction tokens generalizing taken with
  | nil =>
    cases taken with
    | nil => exact ⟨rfl, moved.split.symm⟩
    | cons head tail =>
      obtain ⟨rfl, _⟩ := List.cons_eq_cons.mp moved.split
      exact absurd finished (moved.inside _ (.head _))
  | cons token tokens ih =>
    cases taken with
    | nil =>
      obtain ⟨_, ⟨⟩, ends⟩ := (show rest = _ from moved.split.symm) ▸ ended
      exact absurd ends (inside token (.head _))
    | cons head tail =>
      obtain ⟨rfl, same⟩ := List.cons_eq_cons.mp moved.split
      obtain ⟨rfl, rfl⟩ := ih (fun other member => inside other (.tail _ member))
        ⟨same, fun other member => moved.inside other (.tail _ member)⟩
      exact ⟨rfl, rfl⟩

/-- Every row of tokens is read up to its end. Nothing is reported if and only if the row is derived in
some way, with a line feed behind it if need be, and then the statements are those that it is derived as
with each `ELSE` at the nearest condition. -/
theorem reads_without_report_iff_derived (newline last : Token) (tokens : List Token)
    (feed : newline.symbol = .newline) (finished : last.symbol = .endOfText) (inside : Inside tokens) :
    ∃ program, ofTokens? (tokens ++ [last]) = some program ∧
      (program.diagnostics = [] ↔ ∃ nodes, Derived True newline tokens nodes) ∧
      ∀ nodes, program.diagnostics = [] ∧ program.statements = nodes ↔
        Derived False newline tokens nodes := by
  obtain ⟨program, taken, rest, found, moved, ended, read⟩ :=
    ofTokens?_reads feed ⟨last, List.mem_append_right _ (List.mem_singleton.mpr rfl), finished⟩
  obtain ⟨rfl, rfl⟩ := taken_of_atEnd inside finished moved ended
  have sound (quiet : program.diagnostics = []) : Derived False newline taken program.statements := by
    obtain ⟨full, rfl | ⟨rfl, _⟩, lines, _⟩ := read.derived quiet
    · exact .inl lines
    · exact .inr lines
  have complete (nodes : List Node) (derived : Derived False newline taken nodes) :
      program = ⟨nodes, []⟩ := by
    have known : ofTokens? (taken ++ [last]) = some ⟨nodes, []⟩ := by
      rcases derived with whole | fed
      · exact ofTokens?_of_lines feed finished (.inl rfl) whole
      · exact ofTokens?_of_lines feed finished (.inr ⟨rfl, ended⟩) fed
    exact Option.some.inj (found.symm.trans known)
  refine ⟨program, found, ?_, fun nodes => ?_⟩
  · rw [derived_any_iff_near]
    constructor
    · exact fun quiet => ⟨_, sound quiet⟩
    · intro read
      obtain ⟨nodes, derived⟩ := read
      rw [complete nodes derived]
  · constructor
    · intro read
      obtain ⟨quiet, rfl⟩ := read
      exact sound quiet
    · intro derived
      rw [complete nodes derived]
      exact ⟨rfl, rfl⟩

def bare (symbol : Symbol) : Token := ⟨symbol, "", none, 1⟩

/-- Of two conditions in front of an `ELSE` the second takes it. The last line needs no line feed. -/
theorem nearest_condition_reads_without_report :
    (bare .newline).symbol = .newline ∧ (bare .endOfText).symbol = .endOfText ∧
      Derived False (bare .newline)
        ([.ifWord, .leftParen, .trueWord, .rightParen, .newline, .ifWord, .leftParen, .falseWord,
          .rightParen, .newline, .outputWord, .trueWord, .newline, .elseWord, .newline, .outputWord,
          .falseWord].map bare)
        [.branch (.literal (some (.boolean true)))
          (.branch (.literal (some (.boolean false))) (.output (.literal (some (.boolean true))))
            (.output (.literal (some (.boolean false))))) .absent] := by
  refine ⟨rfl, rfl, ?_⟩
  obtain ⟨program, found, _, meant⟩ := reads_without_report_iff_derived (bare .newline)
    (bare .endOfText) ([.ifWord, .leftParen, .trueWord, .rightParen, .newline, .ifWord, .leftParen,
      .falseWord, .rightParen, .newline, .outputWord, .trueWord, .newline, .elseWord, .newline,
      .outputWord, .falseWord].map bare) rfl rfl (by unfold Inside; decide)
  obtain rfl := Option.some.inj (found.symm.trans rfl)
  exact (meant _).mp ⟨rfl, rfl⟩

end Cfpl.Program
