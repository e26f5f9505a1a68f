import Cfpl.Proofs.Reading.Closed
import Cfpl.Proofs.Reading.CompleteLines

/-! Lines that are read by themselves. On a line that opens no statement of several lines, whatever is wrong with
it, every step comes to rest in front of the line feed or just behind it, and does the same whatever stands
behind the line. -/

namespace Cfpl

def Symbol.plain : Symbol → Bool
  | newline | endOfText | ifWord | whileWord | forWord | start => false
  | _ => true

theorem Symbol.ne_of_plain {symbol other : Symbol} (isPlain : symbol.plain) (apart : other.plain = false) :
    symbol ≠ other := by
  rintro rfl
  exact Bool.noConfusion (isPlain.symm.trans apart)

namespace Program

/-- Tokens in any order up to the only line feed among them. None opens a statement of several lines, and none
ends the text. -/
inductive Line : List Token → Prop
  | feed {token : Token} (ends : token.symbol = .newline) : Line [token]
  | more {token : Token} {rest : List Token} (plain : token.symbol.plain) (behind : Line rest) :
    Line (token :: rest)

namespace Line

variable {line rest : List Token}

theorem suffix (isLine : Line line) (behind : rest <:+ line) (some_ : rest ≠ []) : Line rest := by
  induction isLine with
  | feed ends =>
    rcases List.suffix_cons_iff.mp behind with rfl | inside
    · exact .feed ends
    · exact absurd (List.suffix_nil.mp inside) some_
  | more plain isLine ih =>
    rcases List.suffix_cons_iff.mp behind with rfl | inside
    · exact .more plain isLine
    · exact ih inside

theorem ne_nil (isLine : Line line) : line ≠ [] := by
  cases isLine <;> exact List.cons_ne_nil _ _

theorem inside (isLine : Line line) : Inside line := by
  induction isLine with
  | feed ends => exact List.forall_mem_singleton.mpr (by rw [ends]; decide)
  | more plain isLine ih =>
    exact List.forall_mem_cons.mpr ⟨Symbol.ne_of_plain plain rfl, ih⟩

theorem inside_suffix (isLine : Line line) (behind : rest <:+ line) : Inside rest :=
  fun token member => isLine.inside token (behind.subset member)

end Line

namespace Reader

variable {α β : Type}

inductive Confined (left : List Token → Prop) (step : Reader α) (line : List Token) : Prop
  | read (rest : List Token) (new : List Diagnostic) (a : α) (behind : rest <:+ line) (kept : left rest)
    (ran : ∀ after reports, step ⟨line ++ after, reports⟩ = .ok a ⟨rest ++ after, reports ++ new⟩)
  | failed (rest : List Token) (new : List Diagnostic) (trouble : Trouble) (behind : rest <:+ line)
    (some_ : rest ≠ [])
    (ran : ∀ after reports,
      step ⟨line ++ after, reports⟩ = .error trouble ⟨rest ++ after, reports ++ new⟩)

/-- On each line the step does not look behind the line. -/
def Alone (left : List Token → Prop) (step : Reader α) : Prop := ∀ line, Line line → Confined left step line

variable {left : List Token → Prop}

theorem Confined.before {step next : Reader α} {line rest : List Token} (confined : Confined left next rest)
    (new : List Diagnostic) (behind : rest <:+ line)
    (begun : ∀ after reports,
      step ⟨line ++ after, reports⟩ = next ⟨rest ++ after, reports ++ new⟩) :
    Confined left step line := by
  cases confined with
  | read last newer a further kept ran =>
    refine .read last (new ++ newer) a (further.trans behind) kept fun after reports => ?_
    rw [begun, ran, List.append_assoc]
  | failed last newer trouble further some_ ran =>
    refine .failed last (new ++ newer) trouble (further.trans behind) some_ fun after reports => ?_
    rw [begun, ran, List.append_assoc]

namespace Alone

theorem pure (a : α) : Alone (· ≠ []) (Pure.pure a : Reader α) := by
  intro line isLine
  refine .read line [] a (List.suffix_refl line) isLine.ne_nil fun after reports => ?_
  rw [List.append_nil]
  rfl

theorem raise (trouble : Trouble) : Alone left (throw trouble : Reader α) := by
  intro line isLine
  refine .failed line [] trouble (List.suffix_refl line) isLine.ne_nil fun after reports => ?_
  rw [List.append_nil]
  rfl

theorem report (diagnostic : Diagnostic) : Alone (· ≠ []) (Reader.report diagnostic) :=
  fun line isLine => .read line [diagnostic] () (List.suffix_refl line) isLine.ne_nil fun _ _ => rfl

theorem bind {step : Reader α} {next : α → Reader β} (first : Alone (· ≠ []) step)
    (second : ∀ a, Alone left (next a)) : Alone left (step >>= next) := by
  intro line isLine
  cases first line isLine with
  | read rest new a behind some_ ran =>
    refine (second a rest (isLine.suffix behind some_)).before new behind fun after reports => ?_
    rw [bind_eq, ran]
  | failed rest new trouble behind some_ ran =>
    refine .failed rest new trouble behind some_ fun after reports => ?_
    rw [bind_eq, ran]

theorem map {step : Reader α} (alone : Alone left step) (f : α → β) :
    Alone left (step >>= fun a => Pure.pure (f a)) := by
  intro line isLine
  cases alone line isLine with
  | read rest new a behind kept ran =>
    refine .read rest new (f a) behind kept fun after reports => ?_
    rw [bind_eq, ran]
    rfl
  | failed rest new trouble behind some_ ran =>
    refine .failed rest new trouble behind some_ fun after reports => ?_
    rw [bind_eq, ran]

theorem take? {accepts : Symbol → Bool} {next : Option Token → Reader β} (inLine : accepts .newline = false)
    (none : Alone left (next none))
    (some_ : ∀ token, token.symbol.plain → accepts token.symbol → Alone left (next (some token))) :
    Alone left (Reader.take? accepts >>= next) := by
  intro line isLine
  -- The line feed is not accepted, so what is taken has a line behind it.
  have stays {token : Token} {rest : List Token} (isLine : Line (token :: rest))
      (refused : accepts token.symbol = false) :
      Confined left (Reader.take? accepts >>= next) (token :: rest) := by
    refine (none _ isLine).before [] (List.suffix_refl _) fun after reports => ?_
    rw [bind_eq, List.append_nil]
    simp [Reader.take?, refused]
  cases isLine with
  | feed ends => exact stays (.feed ends) (ends ▸ inLine)
  | @more token rest plain behind =>
    cases accepted : accepts token.symbol with
    | false => exact stays (.more plain behind) accepted
    | true =>
      refine (some_ token plain accepted rest behind).before [] (List.suffix_cons token rest)
        fun after reports => ?_
      have inside : token.symbol ≠ .endOfText := Symbol.ne_of_plain plain rfl
      rw [bind_eq, List.append_nil]
      simp [Reader.take?, accepted, inside]

theorem refuse (message : String) : Alone left (Reader.refuse message : Reader α) := by
  intro line isLine
  obtain _ | ⟨token, rest⟩ := line
  · cases isLine
  · exact .failed (token :: rest) [.atToken token message] .broken (List.suffix_refl _) isLine.ne_nil
      fun _ _ => rfl

def closed : Closed fun _ => True where
  Holds := Alone (· ≠ [])
  pure := pure
  raise := raise
  refuse := refuse
  report _ _ := report _
  bind := bind
  take? inLine none some_ := take? inLine none fun token _ _ => some_ token trivial

theorem endLine (message : String) : Alone (· = []) (endLine message) := by
  intro line isLine
  cases isLine with
  | @feed token ends =>
    refine .read [] [] () List.nil_suffix rfl fun after reports => ?_
    have reads := reads_endLine (.inl rfl : Whole token [token] after [token]) ends message
    rw [List.append_nil]
    exact reads reports
  | @more token rest plain behind =>
    refine (refuse message _ (.more plain behind)).before [] (List.suffix_refl _) fun after reports => ?_
    have inside : token.symbol ≠ .endOfText := Symbol.ne_of_plain plain rfl
    have apart : token.symbol ≠ .newline := Symbol.ne_of_plain plain rfl
    have unfed : Reads (accept .newline) [] false (token :: (rest ++ after)) :=
      reads_accept_none ⟨token, rfl, .inr (by simpa using apart)⟩
    have goes : Reads atEnd [] false (token :: (rest ++ after)) := reads_atEnd_inside inside _
    rw [List.append_nil]
    exact (unfed.leads _ reports).trans (goes.leads _ reports)

end Alone

end Reader

open Reader

section Statements

variable {expression : Reader Node} (expressions : Alone (· ≠ []) expression) (limit : Nat)
include expressions

private theorem alone_declarationLine : Alone (· = []) (declarationLine expression limit) := by
  have items : Alone (· ≠ []) (variableItem expression) := Alone.closed.variableItem expressions
  have others : Alone (· ≠ []) (afterCommas (variableItem expression) limit) :=
    Alone.closed.afterCommas items limit
  exact items.bind fun first => others.bind fun others =>
    .bind (Alone.closed.expect (by decide) _) fun _ => .bind (Alone.closed.expectAny rfl _) fun dataType =>
    (Alone.endLine _).map _

private theorem alone_outputLine : Alone (· = []) (outputLine expression) :=
  expressions.bind fun _ => (Alone.endLine _).map _

private theorem alone_expressionLine : Alone (· = []) (expressionLine expression) :=
  expressions.bind fun _ => (Alone.endLine _).map _

omit expressions in
private theorem alone_inputLine : Alone (· = []) (inputLine limit) := by
  have name (message : String) : Alone (· ≠ []) (expect .identifier message) :=
    Alone.closed.expect (by decide) message
  have others : Alone (· ≠ []) (afterCommas (expect .identifier "Expect variable name after ','.") limit) :=
    Alone.closed.afterCommas (name _) limit
  exact (name _).bind fun first => others.bind fun others => (Alone.endLine _).map _

end Statements

private theorem plain_opening {symbol : Symbol} (plain : symbol.plain) (starts : startsLines symbol) :
    symbol = .outputWord ∨ symbol = .inputWord := by
  cases symbol <;> revert plain starts <;> decide

theorem alone_statement (limit : Nat) : Alone (· = []) (statement limit) := by
  cases limit with
  | zero => exact .raise .exhausted
  | succ limit =>
    have expressions : Alone (· ≠ []) (expression (limit + 1)) := Alone.closed.expression (limit + 1)
    unfold statement
    refine .take? rfl (alone_expressionLine expressions) fun token plain starts => ?_
    rw [Option.map_some]
    rcases plain_opening plain starts with isOutput | isInput
    · rw [isOutput]
      exact alone_outputLine expressions
    · rw [isInput]
      exact alone_inputLine limit

theorem alone_lineParts {expression statement : Reader Node} (expressions : Alone (· ≠ []) expression)
    (limit : Nat) (statements : Alone (· = []) statement) :
    Alone (· = []) (do
      if ← accept .varWord then declarationLine expression limit
      else return [← statement]) := by
  apply Alone.bind (Alone.closed.accept (by decide))
  intro typed
  cases typed with
  | true => exact alone_declarationLine expressions limit
  | false => exact statements.map _

end Program

end Cfpl
