import Cfpl.Program.Statement
import Cfpl.Proofs.Reading.Closed
import Cfpl.Proofs.Reading.Loop

/-! Where a reading reports. Whatever is wrong with a row of tokens, everything that is reported about it is
reported at one of its tokens, also behind a broken statement. -/

namespace Cfpl

inductive Diagnostic.At (given : Token → Prop) : Diagnostic → Prop where
  | token {token : Token} (message : String) : given token → Diagnostic.At given (.atToken token message)
  | stopping {token : Token} (message : String) : given token → Diagnostic.At given (.stopping token message)

theorem Diagnostic.At.line {given : Token → Prop} {diagnostic : Diagnostic} (told : diagnostic.At given) :
    ∃ token, given token ∧ diagnostic.line = token.line := by
  cases told with
  | token message held => exact ⟨_, held, rfl⟩
  | stopping message held => exact ⟨_, held, rfl⟩

namespace Program

structure Position.Among (given : Token → Prop) (position : Position) : Prop where
  rest : ∀ token ∈ position.rest, given token
  reports : ∀ diagnostic ∈ position.reports, diagnostic.At given

namespace Reader

variable {α β : Type} {given : Token → Prop}

def Stays (given : Token → Prop) (step : Reader α) : Prop :=
  ∀ position : Position, position.Among given → match step position with
    | .ok _ after => after.Among given
    | .error _ after => after.Among given

namespace Stays

theorem pure (a : α) : Stays given (Pure.pure a : Reader α) := fun _ among => among

theorem raise (trouble : Trouble) : Stays given (throw trouble : Reader α) := fun _ among => among

theorem bind {step : Reader α} {next : α → Reader β} (first : Stays given step)
    (second : ∀ a, Stays given (next a)) : Stays given (step >>= next) := by
  intro position among
  have begun := first position among
  rw [bind_eq]
  generalize step position = result at begun ⊢
  cases result with
  | ok a after => exact second a after begun
  | error trouble after => exact begun

theorem peek {next : Token → Reader β} (behind : ∀ token, given token → Stays given (next token)) :
    Stays given (Reader.peek >>= next) := by
  intro position among
  obtain ⟨rest, reports⟩ := position
  cases rest with
  | nil => exact among
  | cons token rest => exact behind token (among.rest token (.head _)) _ among

theorem take? {accepts : Symbol → Bool} {next : Option Token → Reader β} (none : Stays given (next none))
    (some_ : ∀ token, given token → Stays given (next (some token))) :
    Stays given (Reader.take? accepts >>= next) := by
  intro position among
  obtain ⟨rest, reports⟩ := position
  cases rest with
  | nil => exact among
  | cons token rest =>
    obtain ⟨known, left⟩ := List.forall_mem_cons.mp among.rest
    rw [bind_eq]
    unfold Reader.take?
    dsimp only
    by_cases accepted : token.symbol ≠ .endOfText && accepts token.symbol
    · rw [if_pos accepted]
      exact some_ token known ⟨rest, reports⟩ ⟨left, among.reports⟩
    · rw [if_neg accepted]
      exact none _ among

end Stays

private theorem stays_atEnd : Stays given atEnd := .peek fun _ _ => .pure _

private theorem stays_at? (symbol : Symbol) : Stays given (at? symbol) := .peek fun _ _ => .pure _

private theorem stays_accept (symbol : Symbol) : Stays given (accept symbol) := .take? (.pure _) fun _ _ => .pure _

private theorem stays_report {token : Token} (known : given token) (message : String) :
    Stays given (report (.atToken token message)) := by
  intro position among
  refine ⟨among.rest, fun diagnostic member => ?_⟩
  rcases List.mem_append.mp member with before | new
  · exact among.reports diagnostic before
  · rw [List.mem_singleton.mp new]
    exact .token message known

private theorem stays_refuse (message : String) : Stays given (refuse message : Reader α) :=
  .peek fun _ known => (stays_report known message).bind fun _ => .raise .broken

def Stays.closed (given : Token → Prop) : Closed given where
  Holds := Stays given
  pure := .pure
  raise := .raise
  refuse := stays_refuse
  report := stays_report
  bind := .bind
  take? _ := .take?

private theorem stays_expectAny (accepts : Symbol → Bool) (message : String) :
    Stays given (expectAny accepts message) :=
  .take? (stays_refuse message) fun token _ => .pure token

private theorem stays_expect (symbol : Symbol) (message : String) : Stays given (expect symbol message) :=
  stays_expectAny _ message

private theorem stays_endLine (message : String) : Stays given (endLine message) := by
  apply (stays_accept .newline).bind
  intro fed
  cases fed with
  | true => exact .pure ()
  | false =>
    apply stays_atEnd.bind
    intro finished
    cases finished with
    | true => exact .pure ()
    | false => exact stays_refuse message

private theorem stays_upTo {done : Reader Bool} {step : Reader (List α)} (decides : Stays given done)
    (steps : Stays given step) (limit : Nat) : Stays given (upTo done step limit) := by
  induction limit with
  | zero => exact .raise .exhausted
  | succ limit ih =>
    apply decides.bind
    intro finished
    cases finished with
    | true => exact .pure []
    | false => exact steps.bind fun first => ih.bind fun others => .pure (first ++ others)

private theorem stays_recovering {step : Reader (List α)} (steps : Stays given step) :
    Stays given (recovering step) := by
  intro position among
  have begun := steps position among
  unfold recovering
  generalize step position = result at begun ⊢
  cases result with
  | ok _ after => exact begun
  | error trouble after =>
    cases trouble with
    | exhausted => exact begun
    | broken =>
      rcases skipBroken_taken after.rest with ⟨taken, rest, found, moved, _⟩ | ⟨found, _⟩
      · have left : ∀ token ∈ rest, given token := fun token member =>
          begun.rest token (moved.split ▸ List.mem_append_right taken member)
        simp only [found]
        exact ⟨left, begun.reports⟩
      · simp only [found]
        exact ⟨List.forall_mem_nil _, begun.reports⟩

end Reader

open Reader

variable {given : Token → Prop}

section Statements

variable {expression : Reader Node} (expressions : Stays given expression) (limit : Nat)
include expressions

private theorem stays_sharedType {ending : Reader Unit} (endings : Stays given ending) :
    Stays given (sharedType expression limit ending) := by
  have items : Stays given (variableItem expression) := (Stays.closed given).variableItem expressions
  exact items.bind fun first => ((Stays.closed given).afterCommas items limit).bind fun others =>
    (stays_expect _ _).bind fun _ => (stays_expectAny _ _).bind fun dataType => endings.bind fun _ => .pure _

private theorem stays_outputLine : Stays given (outputLine expression) :=
  expressions.bind fun _ => (stays_endLine _).bind fun _ => .pure _

private theorem stays_expressionLine : Stays given (expressionLine expression) :=
  expressions.bind fun _ => (stays_endLine _).bind fun _ => .pure _

omit expressions in
private theorem stays_inputLine : Stays given (inputLine limit) :=
  (stays_expect _ _).bind fun _ => ((Stays.closed given).afterCommas (stays_expect _ _) limit).bind fun _ =>
    (stays_endLine _).bind fun _ => .pure _

private theorem stays_countingStart : Stays given (countingStart expression limit) := by
  apply (stays_accept _).bind
  intro none
  cases none with
  | true => exact .pure []
  | false =>
    apply (stays_accept _).bind
    intro typed
    cases typed with
    | true => exact stays_sharedType expressions limit ((stays_expect _ _).bind fun _ => .pure ())
    | false => exact expressions.bind fun body => (stays_expect _ _).bind fun _ => .pure _

private theorem stays_unlessAt (symbol : Symbol) : Stays given (unlessAt expression symbol) := by
  apply (stays_at? symbol).bind
  intro here
  cases here with
  | true => exact .pure none
  | false => exact expressions.bind fun body => .pure _

private theorem stays_countingStep : Stays given (countingStep expression) := by
  apply (stays_unlessAt expressions .rightParen).bind
  intro step
  cases step with
  | none => exact .pure none
  | some step => exact (stays_accept _).bind fun _ => .pure _

variable {statement : Reader Node} (statements : Stays given statement)
include statements

private theorem stays_declaration : Stays given (declaration expression limit statement) := by
  apply stays_recovering
  apply (stays_accept _).bind
  intro typed
  cases typed with
  | true => exact stays_sharedType expressions limit (stays_endLine _)
  | false => exact statements.bind fun node => .pure _

private theorem stays_blockLines : Stays given (blockLines expression limit statement) := by
  have decides : Stays given (do return (← at? .stop) || (← atEnd)) := by
    apply (stays_at? .stop).bind
    intro here
    exact stays_atEnd.bind fun finished => .pure _
  have lines := stays_upTo decides (stays_declaration expressions limit statements) limit
  exact (stays_endLine _).bind fun _ => lines.bind fun body => (stays_expect _ _).bind fun _ =>
    (stays_endLine _).bind fun _ => .pure _

omit statements in
private theorem stays_condition {next : Node → Reader Node} (before behind after : String)
    (continues : ∀ condition, Stays given (next condition)) :
    Stays given (do
      let _ ← expect .leftParen before
      let condition ← expression
      let _ ← expect .rightParen behind
      let _ ← expect .newline after
      next condition) :=
  (stays_expect _ _).bind fun _ => expressions.bind fun condition => (stays_expect _ _).bind fun _ =>
    (stays_expect _ _).bind fun _ => continues condition

private theorem stays_branchLines : Stays given (branchLines expression statement) := by
  refine stays_condition expressions _ _ _ fun condition => statements.bind fun thenBranch =>
    (stays_accept .elseWord).bind fun otherwise => ?_
  cases otherwise with
  | true => exact (stays_expect _ _).bind fun _ => statements.bind fun elseBranch => .pure _
  | false => exact .pure _

private theorem stays_loopLines : Stays given (loopLines expression statement) :=
  stays_condition expressions _ _ _ fun _ => statements.bind fun _ => .pure _

private theorem stays_countingLines : Stays given (countingLines expression limit statement) :=
  (stays_expect _ _).bind fun _ => (stays_countingStart expressions limit).bind fun _ =>
    (stays_unlessAt expressions .semicolon).bind fun _ => (stays_expect _ _).bind fun _ =>
    (stays_countingStep expressions).bind fun _ => (stays_expect _ _).bind fun _ =>
    (stays_expect _ _).bind fun _ => statements.bind fun _ => .pure _

end Statements

private theorem stays_statement (limit : Nat) : Stays given (statement limit) := by
  induction limit with
  | zero => exact .raise .exhausted
  | succ limit ih =>
    have expressions : Stays given (expression (limit + 1)) := (Stays.closed given).expression (limit + 1)
    unfold statement
    refine .take? (stays_expressionLine expressions) fun token _ => ?_
    rw [Option.map_some]
    split
    · exact stays_outputLine expressions
    · exact stays_inputLine limit
    · exact stays_branchLines expressions ih
    · exact stays_loopLines expressions ih
    · exact stays_countingLines expressions limit ih
    · exact stays_blockLines expressions limit ih
    · exact stays_expressionLine expressions

private theorem stays_reader (limit : Nat) : Stays given (reader limit) := by
  have expressions : Stays given (expression limit) := (Stays.closed given).expression limit
  exact stays_upTo stays_atEnd (stays_declaration expressions limit (stays_statement limit)) limit

theorem reports_of_read {tokens : List Token} {program : Program} (read : ofTokens? tokens = some program) :
    ∀ diagnostic ∈ program.diagnostics, diagnostic.At (· ∈ tokens) := by
  have among : Position.Among (· ∈ tokens) ⟨tokens, []⟩ := ⟨fun _ member => member, List.forall_mem_nil _⟩
  have ended := stays_reader tokens.length ⟨tokens, []⟩ among
  unfold ofTokens? at read
  split at read
  · next statements position found =>
    cases read
    rw [found] at ended
    exact ended.reports
  · cases read

end Program

end Cfpl
