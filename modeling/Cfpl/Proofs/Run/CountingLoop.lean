import Cfpl.Proofs.Reading.Complete
import Cfpl.Proofs.Reading.Statement
import Cfpl.Proofs.Scope.Padding

/-! A counting loop does the same as the block and the loop that it is read as. Those have a scope for each
round where the counting loop has none, and no scope around the loop where it starts with nothing; but a
body that was read declares nothing in the scope it stands in, so these scopes stay empty. -/

namespace Cfpl.Run

variable (settings : Settings)

def conditionHolds : Option Node → Run Bool
  | none => return true
  | some condition => return (← evaluate settings condition).holds

def takeStep : Option Node → Run Unit
  | none => return ()
  | some step => do
    let _ ← evaluate settings step

def counting (start : List Node) (condition step : Option Node) (body : Node) : Run Unit :=
  inScope do
    executeAll settings start
    whileHolds (conditionHolds settings condition)
      (do
        execute settings body
        takeStep settings step)
      settings.rounds

variable {α : Type}

/-- The two runs end with the same variables in every scope, the same lines left to read and the same
events, and either both give the same result or both are halted in the same way. -/
inductive EndAlike : EStateM.Result Halt State α → EStateM.Result Halt State α → Prop where
  | ok (a : α) {first second : State} : first.scopes = second.scopes →
    first.pending = second.pending → first.events = second.events →
    EndAlike (.ok a first) (.ok a second)
  | error (halt : Halt) {first second : State} : first.scopes = second.scopes →
    first.pending = second.pending → first.events = second.events →
    EndAlike (.error halt first) (.error halt second)

/-- The run goes on for ever: no number of rounds is enough for its loops. -/
def Diverges (run : Nat → Run α) (state : State) : Prop :=
  ∀ rounds, ∃ after, run rounds state = .error .unfinished after

end Cfpl.Run

namespace Cfpl

namespace Program

variable {α β : Type}

def Reader.Yields (step : Reader α) (kind : α → Prop) : Prop :=
  ∀ position a later, step position = .ok a later → kind a

open Reader

private theorem Reader.bind_ok {step : Reader α} {next : α → Reader β} {position later : Position} {b : β}
    (read : (step >>= next) position = .ok b later) :
    ∃ a middle, step position = .ok a middle ∧ next a middle = .ok b later := by
  rw [bind_eq] at read
  cases first : step position with
  | ok a middle =>
    rw [first] at read
    exact ⟨a, middle, rfl, read⟩
  | error trouble middle =>
    rw [first] at read
    cases read

theorem Reader.Yields.bind {step : Reader α} {next : α → Reader β} {good : α → Prop}
    {kind : β → Prop} (first : step.Yields good) (second : ∀ a, good a → (next a).Yields kind) :
    (step >>= next).Yields kind := by
  intro position b later read
  obtain ⟨a, middle, before, behind⟩ := bind_ok read
  exact second a (first position a middle before) middle b later behind

theorem Reader.Yields.after {step : Reader α} {next : α → Reader β} {kind : β → Prop}
    (second : ∀ a, (next a).Yields kind) : (step >>= next).Yields kind := by
  have any : step.Yields fun _ => True := fun _ _ _ _ => trivial
  exact any.bind fun a _ => second a

theorem Reader.Yields.pure {a : α} {kind : α → Prop} (held : kind a) :
    (Pure.pure a : Reader α).Yields kind := by
  intro position b later read
  cases read
  exact held

theorem Reader.Yields.raise {trouble : Trouble} {kind : α → Prop} :
    (throw trouble : Reader α).Yields kind :=
  fun _ _ _ read => nomatch read

private theorem not_declares_countingLoop (start : List Node) (condition step : Option Node) {body : Node}
    (plain : ¬body.declares) : ¬(countingLoop start condition step body).declares := by
  rw [countingLoop_eq]
  cases start with
  | cons first others => exact Bool.false_ne_true
  | nil =>
    cases step with
    | none => exact plain
    | some step => exact Bool.false_ne_true

private theorem yields_statement (limit : Nat) : (statement limit).Yields fun node => ¬node.declares := by
  induction limit with
  | zero => exact .raise
  | succ limit ih =>
    unfold statement
    apply Yields.after
    intro word
    split
    · exact .after fun _ => .after fun _ => .pure Bool.false_ne_true
    · exact .after fun _ => .after fun _ => .after fun _ => .pure Bool.false_ne_true
    · unfold branchLines
      refine .after fun _ => .after fun condition => .after fun _ => .after fun _ => ih.bind ?_
      intro thenBranch plain
      apply Yields.after
      intro present
      split
      · refine .after fun _ => ih.bind fun elseBranch plainElse => .pure ?_
        simp [Node.declares, plain, plainElse]
      · exact .pure (by simp [Node.declares, plain])
    · exact .after fun _ => .after fun _ => .after fun _ => .after fun _ => ih.bind fun body plain =>
        .pure plain
    · refine .after fun _ => .after fun start => .after fun condition => .after fun _ => .after fun step =>
        .after fun _ => .after fun _ => ih.bind fun body plain => ?_
      exact .pure (not_declares_countingLoop start condition step plain)
    · exact .after fun _ => .after fun _ => .after fun _ => .after fun _ => .pure Bool.false_ne_true
    · exact .after fun _ => .after fun _ => .pure Bool.false_ne_true

private theorem yields_countingClauses (expression : Reader Node) (limit : Nat) :
    (countingClauses expression limit (statement limit)).Yields fun clauses => ¬clauses.body.declares := by
  unfold countingClauses
  refine .after fun _ => .after fun start => .after fun condition => .after fun _ => .after fun step =>
    .after fun _ => .after fun _ => (yields_statement limit).bind fun body plain => ?_
  exact .pure plain

end Program

namespace Run

open Likeness Program.Grammar

variable {settings : Settings} {likeness : Likeness} {depth : Nat}

theorem executeAll_append (settings : Settings) (front back : List Node) :
    executeAll settings (front ++ back) =
      (do executeAll settings front; executeAll settings back) := by
  induction front with
  | nil => rfl
  | cons first rest ih =>
    rw [List.cons_append, executeAll, executeAll, ih, bind_assoc]

section Same

variable (sameLines : likeness.lines = 0)
include sameLines

private theorem keeps_same (node : Node) (inner : ¬likeness.opened depth → ¬node.declares) :
    likeness.Keeps depth (execute settings node) (execute settings node) :=
  (likeness.congruence rfl).executeSame sameLines depth ⟨fun _ _ => trivial, fun _ _ => trivial⟩ inner

theorem keeps_sameAll (opened : likeness.opened depth) (nodes : List Node) :
    likeness.Keeps depth (executeAll settings nodes) (executeAll settings nodes) :=
  (likeness.congruence rfl).executeAllSame sameLines depth ⟨fun _ _ => trivial, fun _ _ => trivial⟩
    fun closed => absurd opened closed

private theorem keeps_sameValue (node : Node) :
    likeness.Keeps depth (evaluate settings node) (evaluate settings node) :=
  (likeness.congruence rfl).evaluateSame sameLines ⟨fun _ _ => trivial, fun _ _ => trivial⟩

private theorem keeps_condition (condition : Option Node) :
    likeness.Keeps depth
      (do
        let value ← evaluate settings (conditionOr condition)
        record settings (.loop value)
        return value.holds)
      (conditionHolds settings condition) := by
  cases condition with
  | none =>
    show likeness.Keeps depth (do record settings (.loop (.boolean true)); pure true) (pure true)
    exact .record (.pure true)
  | some condition =>
    apply (keeps_sameValue sameLines condition).bind
    intro value
    exact .record (.pure value.holds)

private theorem keeps_takeStep (step : Option Node) :
    likeness.Keeps depth (takeStep settings step) (takeStep settings step) := by
  cases step with
  | none => exact .pure ()
  | some step => exact (keeps_sameValue sameLines step).bind fun _ => .pure ()

private theorem keeps_loop {condition step : Option Node} {body : Node}
    (round : likeness.Keeps depth (execute settings (stepped body step))
      (do
        execute settings body
        takeStep settings step)) :
    likeness.Keeps depth (execute settings (.loop (conditionOr condition) (stepped body step)))
      (whileHolds (conditionHolds settings condition)
        (do
          execute settings body
          takeStep settings step) settings.rounds) :=
  .record ((likeness.congruence (Eq.refl settings.rounds)).whileHolds (keeps_condition sameLines condition)
    round settings.rounds)

end Same

section Round

variable {body : Node} (plain : ¬body.declares) (step : Option Node)
include plain

private theorem keeps_round :
    padded.Keeps 0
      (do
        execute settings body
        takeStep settings step)
      (do
        execute settings body
        takeStep settings step) := by
  apply (keeps_same rfl body fun _ => plain).bind
  intro _
  exact keeps_takeStep rfl step

private theorem keeps_stepped :
    Likeness.plain.Keeps depth (execute settings (stepped body step))
      (do
        execute settings body
        takeStep settings step) := by
  cases step with
  | none =>
    have whole : (do execute settings body; takeStep settings none) = execute settings body :=
      bind_pure_unit
    rw [whole]
    exact keeps_same rfl body fun _ => plain
  | some step =>
    refine .record (Keeps.inPadding ?_).symm
    apply (keeps_same rfl body fun _ => plain).bind
    intro _
    have last : padded.Keeps 0 (takeStep settings (some step)) (execute settings (.expression step)) :=
      .recordOther ((keeps_sameValue rfl step).bind fun _ => .pure ())
    have whole : executeAll settings [.expression step] = execute settings (.expression step) :=
      bind_pure_unit
    rw [whole]
    exact last

end Round

private theorem keeps_countingLoop (start : List Node) (condition step : Option Node) {body : Node}
    (plain : ¬body.declares) :
    Likeness.plain.Keeps depth (execute settings (Program.countingLoop start condition step body))
      (counting settings start condition step body) := by
  rw [Program.countingLoop_eq]
  cases start with
  | nil =>
    -- The counting loop has a scope around it that the other loop has not.
    refine Keeps.inPadding (keeps_loop rfl ?_)
    exact (keeps_stepped plain step).trans (keeps_round plain step)
  | cons first others =>
    refine .record (.inScope ?_)
    rw [executeAll_append]
    have begun : Likeness.plain.Keeps (depth + 1) (executeAll settings (first :: others))
        (executeAll settings (first :: others)) := keeps_sameAll rfl trivial (first :: others)
    apply begun.bind
    intro _
    have whole : executeAll settings [.loop (conditionOr condition) (stepped body step)] =
        execute settings (.loop (conditionOr condition) (stepped body step)) := bind_pure_unit
    rw [whole]
    exact keeps_loop rfl (keeps_stepped plain step)

private theorem endAlike_countingLoop (start : List Node) (condition step : Option Node) {body : Node}
    (plain : ¬body.declares) (state : State) :
    EndAlike (execute settings (Program.countingLoop start condition step body) state)
      (counting settings start condition step body state) := by
  have keeps : Likeness.plain.Keeps 0 (execute settings (Program.countingLoop start condition step body))
      (counting settings start condition step body) := keeps_countingLoop start condition step plain
  have ended := keeps state state ⟨rfl, rfl, rfl⟩
  generalize execute settings (Program.countingLoop start condition step body) state = result at ended ⊢
  generalize counting settings start condition step body state = direct at ended ⊢
  cases ended with
  | ok a alike => exact .ok a alike.scopes alike.console.1 alike.console.2
  | error halt alike =>
    rw [show halt.shift Likeness.plain.lines = halt from Halt.shift_zero halt]
    exact .error halt alike.scopes alike.console.1 alike.console.2

private theorem EndAlike.unfinished_iff {α : Type} {first second : EStateM.Result Halt State α}
    (alike : EndAlike first second) :
    (∃ after, first = .error .unfinished after) ↔ ∃ after, second = .error .unfinished after := by
  cases alike <;> simp

/-- A counting loop that is read is carried out as its clauses say, whatever the tokens around it are: its
lines are read as its clauses, and the node that stands for them ends like the counting loop itself, or
goes on for ever where that does. -/
theorem counting_of_read {limit : Nat} {word : Token} {tokens : List Token} {reports : List Diagnostic}
    {node : Node} {later : Program.Position} (isFor : word.symbol = .forWord)
    (read : Program.statement (limit + 1) ⟨word :: tokens, reports⟩ = .ok node later) :
    ∃ clauses : Program.Clauses,
      Program.countingClauses (Program.expression (limit + 1)) limit (Program.statement limit)
        ⟨tokens, reports⟩ = .ok clauses later ∧
      (∀ settings state, EndAlike (execute settings node state)
        (counting settings clauses.start clauses.condition clauses.step clauses.body state)) ∧
      ∀ detail state, Diverges (fun rounds => execute ⟨detail, rounds⟩ node) state ↔
        Diverges (fun rounds =>
          counting ⟨detail, rounds⟩ clauses.start clauses.condition clauses.step clauses.body) state := by
  have lines : (Program.Clauses.loop <$> Program.countingClauses (Program.expression (limit + 1)) limit
      (Program.statement limit)) ⟨tokens, reports⟩ = .ok node later := by
    rw [← Program.countingLines_eq, ← read]
    have taken : Program.Reader.Reads (Program.Reader.take? Program.startsLines) [word] (some word) tokens :=
      Program.Reader.reads_take? (by rw [isFor]; decide) (by rw [isFor]; rfl) tokens
    rw [Program.statement, show word :: tokens = [word] ++ tokens from rfl, taken.leads _ reports]
    simp only [Option.map_some, isFor]
  rw [map_eq_pure_bind] at lines
  obtain ⟨clauses, middle, found, made⟩ := Program.Reader.bind_ok lines
  cases made
  have plain : ¬clauses.body.declares := Program.yields_countingClauses _ _ _ _ _ found
  have alike (settings : Settings) (state : State) :
      EndAlike (execute settings clauses.loop state)
        (counting settings clauses.start clauses.condition clauses.step clauses.body state) :=
    endAlike_countingLoop clauses.start clauses.condition clauses.step plain state
  refine ⟨clauses, found, alike, fun detail state => ?_⟩
  exact forall_congr' fun rounds => (alike ⟨detail, rounds⟩ state).unfinished_iff

def twoRounds : List Token :=
  [⟨.leftParen, "(", none, 1⟩, ⟨.varWord, "VAR", none, 1⟩, ⟨.identifier, "i", none, 1⟩, ⟨.equal, "=", none, 1⟩,
    ⟨.number, "0", some (.integer 0), 1⟩, ⟨.asWord, "AS", none, 1⟩, ⟨.intType, "INT", none, 1⟩,
    ⟨.semicolon, ";", none, 1⟩, ⟨.identifier, "i", none, 1⟩, ⟨.less, "<", none, 1⟩,
    ⟨.number, "2", some (.integer 2), 1⟩, ⟨.semicolon, ";", none, 1⟩, ⟨.identifier, "i", none, 1⟩,
    ⟨.equal, "=", none, 1⟩, ⟨.identifier, "i", none, 1⟩, ⟨.plus, "+", none, 1⟩,
    ⟨.number, "1", some (.integer 1), 1⟩, ⟨.rightParen, ")", none, 1⟩, ⟨.newline, "\n", none, 1⟩,
    ⟨.outputWord, "OUTPUT:", none, 2⟩, ⟨.identifier, "i", none, 2⟩, ⟨.newline, "\n", none, 2⟩]

def twoRoundsLoop : Node :=
  let i (line : Int) : Token := ⟨.identifier, "i", none, line⟩
  .block [.declare (i 1) (.literal (some (.integer 0))) (some ⟨.intType, "INT", none, 1⟩),
    .loop (.binary (.reference (i 1)) ⟨.less, "<", none, 1⟩ (.literal (some (.integer 2))))
      (.block [.output (.reference (i 2)), .expression (.assign (i 1)
        (.binary (.reference (i 1)) ⟨.plus, "+", none, 1⟩ (.literal (some (.integer 1)))))])]

theorem counting_of_twoRounds :
    Program.statement 30 ⟨⟨.forWord, "FOR", none, 1⟩ :: (twoRounds ++ [⟨.endOfText, "", none, 3⟩]), []⟩ =
        .ok twoRoundsLoop ⟨[⟨.endOfText, "", none, 3⟩], []⟩ ∧
      ∃ clauses : Program.Clauses,
        Program.countingClauses (Program.expression 30) 29 (Program.statement 29)
          ⟨twoRounds ++ [⟨.endOfText, "", none, 3⟩], []⟩ =
            .ok clauses ⟨[⟨.endOfText, "", none, 3⟩], []⟩ ∧
        (∀ settings state, EndAlike (execute settings twoRoundsLoop state)
          (counting settings clauses.start clauses.condition clauses.step clauses.body state)) ∧
        ∃ after, counting ⟨0, 10⟩ clauses.start clauses.condition clauses.step clauses.body
            (Session.empty.start [] []) = .ok () after ∧
          after.events.toList = [.output "0", .output "1"] := by
  have isFor : (⟨.forWord, "FOR", none, 1⟩ : Token).symbol = .forWord := rfl
  have read : Program.statement 30
      ⟨⟨.forWord, "FOR", none, 1⟩ :: (twoRounds ++ [⟨.endOfText, "", none, 3⟩]), []⟩ =
        .ok twoRoundsLoop ⟨[⟨.endOfText, "", none, 3⟩], []⟩ := rfl
  obtain ⟨clauses, found, alike, _⟩ := counting_of_read isFor read
  refine ⟨read, clauses, found, alike, ?_⟩
  obtain ⟨after, ran, shown⟩ : ∃ after,
      execute ⟨0, 10⟩ twoRoundsLoop (Session.empty.start [] []) = .ok () after ∧
        after.events.toList = [.output "0", .output "1"] := ⟨_, rfl, rfl⟩
  have same := alike ⟨0, 10⟩ (Session.empty.start [] [])
  rw [ran] at same
  generalize counting ⟨0, 10⟩ clauses.start clauses.condition clauses.step clauses.body
    (Session.empty.start [] []) = direct at same ⊢
  cases same with
  | ok _ _ _ events => exact ⟨_, rfl, by rw [← events, shown]⟩

end Run

end Cfpl
