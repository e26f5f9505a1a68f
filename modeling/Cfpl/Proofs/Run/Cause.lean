import Cfpl.Proofs.Run.Entry
import Cfpl.Proofs.Run.Reached
import Cfpl.Run.Machine

/-! What faults a program can be stopped by. They arise in expressions, and where a variable of an input line is
looked for; declarations and input lines report what is wrong with them and go on. -/

namespace Cfpl.Run

variable {α β : Type} {known : Token → Fault → Prop} {settings : Settings} {state : State}

def FaultsOnly (known : Token → Fault → Prop) (run : Run α) (state : State) : Prop :=
  ∀ token fault after, run state = .error (.fault token fault) after → known token fault

namespace FaultsOnly

theorem pure (a : α) (state : State) : FaultsOnly known (Pure.pure a) state := by
  intro token fault after failed
  cases failed

theorem misuse (misuse : Misuse) (state : State) : FaultsOnly known (Run.misuse misuse : Run α) state := by
  intro token fault after failed
  cases failed

theorem bind {run : Run α} {next : α → Run β} (first : FaultsOnly known run state)
    (second : ∀ a after, FaultsOnly known (next a) after) : FaultsOnly known (run >>= next) state := by
  intro token fault after failed
  rw [run_bind] at failed
  cases ran : run state with
  | ok a middle =>
    rw [ran] at failed
    exact second a middle token fault after failed
  | error halt middle =>
    rw [ran] at failed
    cases failed
    exact first token fault _ ran

theorem mono {wider : Token → Fault → Prop} {run : Run α} (only : FaultsOnly known run state)
    (widened : ∀ token fault, known token fault → wider token fault) : FaultsOnly wider run state :=
  fun token fault after failed => widened token fault (only token fault after failed)

theorem ofQuiet {run : Run α} {a : α} (quiet : Quiet run a) (state : State) : FaultsOnly known run state := by
  intro token fault after failed
  obtain ⟨middle, ran, _⟩ := quiet state
  rw [ran] at failed
  cases failed

theorem record (entry : TraceEntry) (state : State) : FaultsOnly known (Run.record settings entry) state :=
  .ofQuiet (quiet_record settings entry) state

theorem emit (event : Event) (state : State) : FaultsOnly known (Run.emit event) state :=
  .ofQuiet (quiet_emit event) state

end FaultsOnly

section Actions

private theorem faultsOnly_declarationValue (name : String) (dataType : Option Token) (given : Option Value)
    (state : State) : FaultsOnly known (declarationValue name dataType given) state := by
  cases dataType with
  | none => exact .misuse .missingDataType state
  | some dataType =>
    cases given with
    | none =>
      show FaultsOnly known (startingValue name dataType) state
      unfold startingValue
      split
      · exact .pure _ state
      · exact .bind (.emit _ state) fun _ after => .pure _ after
    | some value =>
      show FaultsOnly known (declaredValue name dataType value) state
      unfold declaredValue
      split
      · exact .misuse .notDataType state
      · split
        · exact .pure _ state
        · exact .bind (.emit _ state) fun _ after => .pure _ after

private theorem faultsOnly_declareAs (name : Token) (dataType : Option Token) (given : Option Value) (state : State) :
    FaultsOnly known (declareAs settings name dataType given) state := by
  refine .bind (faultsOnly_declarationValue name.lexeme dataType given state) fun value middle => ?_
  have defined : FaultsOnly known (define name.lexeme value) middle := by
    intro token fault after failed
    cases failed
  exact .bind defined fun _ after => .record _ after

private theorem faultsOnly_readFields (names : List Token) (state : State) :
    FaultsOnly known (readFields names) state := by
  have read : FaultsOnly known readLine state := by
    intro token fault after failed
    cases failed
  refine .bind read fun line middle => ?_
  simp only
  split
  · exact .pure _ middle
  · split
    · exact .misuse .noNames middle
    · exact .bind (.emit _ middle) fun _ after => .pure _ after

private theorem faultsOnly_ofExcept (result : Except Halt α) (state : State) :
    FaultsOnly (fun token fault => result = .error (.fault token fault)) (ofExcept result) state := by
  intro token fault after failed
  cases result with
  | ok a => cases failed
  | error halt =>
    cases failed
    rfl

private theorem faultsOnly_lookup (name : Token) (state : State) :
    FaultsOnly (fun token fault => token = name ∧ fault = .undefinedVariable name.lexeme ∧
      state.scopes.get? name.lexeme = none) (lookup name) state := by
  intro token fault after failed
  unfold lookup at failed
  split at failed
  · cases failed
  · next undefined =>
    cases failed
    exact ⟨rfl, rfl, undefined⟩

private theorem faultsOnly_assign (name : Token) (value : Value) (state : State) :
    FaultsOnly (fun token fault => token = name ∧ state.scopes.assign name.lexeme value = .error fault)
      (assign name value) state := by
  intro token fault after failed
  unfold assign at failed
  rw [run_bind] at failed
  unfold tryAssign at failed
  cases assigned : state.scopes.assign name.lexeme value with
  | ok scopes =>
    rw [assigned] at failed
    cases failed
  | error refusal =>
    rw [assigned] at failed
    cases failed
    exact ⟨rfl, rfl⟩

private theorem faultsOnly_inputField (name : Token) (field : String) (state : State) :
    FaultsOnly (fun token fault => token = name ∧ fault = .undefinedVariable name.lexeme ∧
      state.scopes.get? name.lexeme = none) (inputField settings name field) state := by
  cases held : state.scopes.get? name.lexeme with
  | some current =>
    intro token fault after failed
    obtain ⟨middle, reports, ran, _⟩ := @inputField_settles settings state name field current held
    rw [ran] at failed
    cases failed
  | none =>
    intro token fault after failed
    unfold inputField at failed
    rw [run_bind] at failed
    unfold lookup at failed
    rw [held] at failed
    cases failed
    exact ⟨rfl, rfl, rfl⟩

end Actions

def Onward (run : Run Move) : Prop :=
  ∀ state move after, run state = .ok move after → ∀ halt, move.control ≠ .raised halt

namespace Onward

theorem pure {control : Control} {waits : List Task} (goesOn : ∀ halt, control ≠ .raised halt) :
    Onward (Pure.pure ⟨control, waits⟩) := by
  intro state move after ran
  cases ran
  exact goesOn

theorem misuse (misuse : Misuse) : Onward (Run.misuse misuse) := by
  intro state move after ran
  cases ran

theorem bind {run : Run α} {next : α → Run Move} (behind : ∀ a, Onward (next a)) : Onward (run >>= next) := by
  intro state move after ran
  rw [run_bind] at ran
  cases first : run state with
  | ok a middle =>
    rw [first] at ran
    exact behind a middle move after ran
  | error halt middle =>
    rw [first] at ran
    cases ran

theorem done (waits : List Task) : Onward (Pure.pure ⟨.done, waits⟩) := .pure fun _ => Control.noConfusion

theorem evaluate (node : Node) (operands : List Operand) (use : Use) (waits : List Task) :
    Onward (Pure.pure ⟨.evaluate node operands use, waits⟩) := .pure fun _ => Control.noConfusion

theorem value (value : Value) (operands : List Operand) (use : Use) (waits : List Task) :
    Onward (Pure.pure ⟨.value value operands use, waits⟩) := .pure fun _ => Control.noConfusion

theorem execute (node : Node) (waits : List Task) : Onward (Pure.pure ⟨.execute node, waits⟩) :=
  .pure fun _ => Control.noConfusion

end Onward

section Moves

private theorem onward_enterExpression (operands : List Operand) (use : Use) (node : Node) :
    Onward (enterExpression operands use node) := by
  cases node with
  | literal value =>
    cases value with
    | some value => exact .value value operands use []
    | none => exact .misuse .missingLiteral
  | grouping | assign | unary | logical | binary => exact .evaluate _ _ _ _
  | reference name => exact .bind fun _ => .value _ _ _ _
  | absent | list | expression | output | declare | block | input | branch | loop => exact .misuse .notExpression

private theorem onward_supply (value : Value) (operands : List Operand) (use : Use) (operand : Operand) :
    Onward (supply settings value operands use operand) := by
  cases operand with
  | assign | unary | right => exact .bind fun _ => .value _ _ _ _
  | left => exact .evaluate _ _ _ _
  | logical operator right =>
    simp only [supply]
    split
    · exact .value _ _ _ _
    · exact .evaluate _ _ _ _

private theorem onward_consume (value : Value) (use : Use) : Onward (consume settings value use) := by
  cases use with
  | discard => exact .done _
  | output | declare => exact .bind fun _ => .done _
  | branch thenBranch elseBranch =>
    refine .bind fun _ => ?_
    split
    · exact .execute _ _
    · split
      · exact .done _
      · exact .execute _ _
  | loop condition body =>
    refine .bind fun _ => ?_
    split
    · exact .execute _ _
    · exact .done _

private theorem onward_enterStatement (node : Node) : Onward (enterStatement settings node) := by
  refine .bind fun _ => ?_
  cases node with
  | expression | output | branch | loop => exact .evaluate _ _ _ _
  | declare name initial dataType =>
    simp only [enterBody]
    split
    · exact .bind fun _ => .done _
    · exact .evaluate _ _ _ _
  | block => exact .bind fun _ => .done _
  | input names =>
    refine .bind fun fields => ?_
    cases fields with
    | some fields => exact .done _
    | none => exact .done _
  | absent | list | literal | grouping | unary | binary | logical | reference | assign =>
    exact .misuse .notStatement

private theorem onward_resume (task : Task) : Onward (resume settings task) := by
  cases task with
  | rest nodes =>
    cases nodes with
    | nil => exact .done _
    | cons => exact .execute _ _
  | leave => exact .bind fun _ => .done _
  | again => exact .evaluate _ _ _ _
  | fields names fields =>
    cases names with
    | nil => exact .done _
    | cons name names =>
      cases fields with
      | nil => exact .done _
      | cons => exact .bind fun _ => .done _

end Moves

section Steps

variable {tasks : List Task}

private theorem faults_enterExpression (operands : List Operand) (use : Use) (node : Node) :
    FaultsOnly (Config.Faults ⟨.evaluate node operands use, tasks, state⟩) (enterExpression operands use node)
      state := by
  cases node with
  | literal value =>
    cases value with
    | some value => exact .pure _ state
    | none => exact .misuse .missingLiteral state
  | grouping | assign | unary | logical | binary => exact .pure _ state
  | reference name =>
    refine .bind ((faultsOnly_lookup name state).mono ?_) fun value after => .pure _ after
    rintro token fault ⟨rfl, rfl, undefined⟩
    exact .reference undefined
  | absent | list | expression | output | declare | block | input | branch | loop =>
    exact .misuse .notExpression state

private theorem faults_supply (value : Value) (operands : List Operand) (use : Use) (operand : Operand) :
    FaultsOnly (Config.Faults ⟨.value value (operand :: operands) use, tasks, state⟩)
      (supply settings value operands use operand) state := by
  cases operand with
  | assign name =>
    have assigned : FaultsOnly (Config.Faults ⟨.value value (.assign name :: operands) use, tasks, state⟩)
        (assignTraced settings name value) state := by
      refine .bind ((faultsOnly_assign name value state).mono ?_) fun _ middle =>
        .bind (.record _ middle) fun _ after => .pure _ after
      rintro token fault ⟨rfl, refused⟩
      exact .assign refused
    exact .bind assigned fun _ after => .pure _ after
  | unary operator =>
    exact .bind ((faultsOnly_ofExcept _ state).mono fun token fault failed => .unary failed) fun _ after =>
      .pure _ after
  | logical operator right =>
    simp only [supply]
    split
    · exact .pure _ state
    · exact .pure _ state
  | left operator right => exact .pure _ state
  | right operator left =>
    exact .bind ((faultsOnly_ofExcept _ state).mono fun token fault failed => .binary failed) fun _ after =>
      .pure _ after

private theorem faultsOnly_consume (value : Value) (use : Use) (state : State) :
    FaultsOnly known (consume settings value use) state := by
  cases use with
  | discard => exact .pure _ state
  | output => exact .bind (.emit _ state) fun _ after => .pure _ after
  | declare name dataType => exact .bind (faultsOnly_declareAs _ _ _ _) fun _ after => .pure _ after
  | branch thenBranch elseBranch =>
    refine .bind (.record _ state) fun _ after => ?_
    split
    · exact .pure _ after
    · split
      · exact .pure _ after
      · exact .pure _ after
  | loop condition body =>
    refine .bind (.record _ state) fun _ after => ?_
    split
    · exact .pure _ after
    · exact .pure _ after

private theorem faultsOnly_enterStatement (node : Node) (state : State) :
    FaultsOnly known (enterStatement settings node) state := by
  refine .bind (.record _ state) fun _ middle => ?_
  cases node with
  | expression | output | branch | loop => exact .pure _ middle
  | declare name initial dataType =>
    simp only [enterBody]
    split
    · exact .bind (faultsOnly_declareAs _ _ _ _) fun _ after => .pure _ after
    · exact .pure _ middle
  | block body =>
    have entered : FaultsOnly known enterScope middle := by
      intro token fault after failed
      cases failed
    exact .bind entered fun _ after => .pure _ after
  | input names =>
    refine .bind (faultsOnly_readFields names middle) fun fields after => ?_
    cases fields with
    | some fields => exact .pure _ after
    | none => exact .pure _ after
  | absent | list | literal | grouping | unary | binary | logical | reference | assign =>
    exact .misuse .notStatement middle

private theorem faults_resume (task : Task) :
    FaultsOnly (Config.Faults ⟨.done, task :: tasks, state⟩) (resume settings task) state := by
  cases task with
  | rest nodes =>
    cases nodes with
    | nil => exact .pure _ state
    | cons => exact .pure _ state
  | leave =>
    have left : FaultsOnly (Config.Faults ⟨.done, .leave :: tasks, state⟩) leaveScope state := by
      intro token fault after failed
      cases failed
    exact .bind left fun _ after => .pure _ after
  | again => exact .pure _ state
  | fields names fields =>
    cases names with
    | nil => exact .pure _ state
    | cons name names =>
      cases fields with
      | nil => exact .pure _ state
      | cons field fields =>
        refine .bind ((faultsOnly_inputField name field state).mono ?_) fun _ after => .pure _ after
        rintro token fault ⟨rfl, rfl, undefined⟩
        exact .field undefined

private theorem error_of_after {run : Run Move} (onward : Onward run) {left : List Task} {last : State} {halt : Halt}
    (raised : Config.after tasks (run state) = ⟨.raised halt, left, last⟩) : run state = .error halt last := by
  cases ran : run state with
  | ok move after =>
    rw [ran] at raised
    exact absurd (congrArg Config.control raised) (onward state move after ran halt)
  | error other after =>
    rw [ran] at raised
    cases raised
    rfl

private theorem faults_of_next {config : Config} {token : Token} {fault : Fault} {left : List Task} {last : State}
    (running : ∀ halt, config.control ≠ .raised halt)
    (stepped : config.next settings = some ⟨.raised (.fault token fault), left, last⟩) :
    config.Faults token fault := by
  obtain ⟨control, tasks, state⟩ := config
  cases control with
  | evaluate node operands use =>
    exact faults_enterExpression operands use node _ _ _
      (error_of_after (onward_enterExpression operands use node) (Option.some.inj stepped))
  | value value operands use =>
    cases operands with
    | nil =>
      exact faultsOnly_consume value use state _ _ _
        (error_of_after (onward_consume value use) (Option.some.inj stepped))
    | cons operand operands =>
      exact faults_supply value operands use operand _ _ _
        (error_of_after (onward_supply value operands use operand) (Option.some.inj stepped))
  | execute node =>
    exact faultsOnly_enterStatement node state _ _ _
      (error_of_after (onward_enterStatement node) (Option.some.inj stepped))
  | done =>
    cases tasks with
    | nil => cases stepped
    | cons task tasks =>
      exact faults_resume task _ _ _ (error_of_after (onward_resume task) (Option.some.inj stepped))
  | raised halt => exact absurd rfl (running halt)

private theorem raising_step {start config : Config} {halt : Halt} (steps : Steps settings start config)
    (running : ∀ halt, start.control ≠ .raised halt) (raised : config.control = .raised halt) :
    ∃ before left last, Steps settings start before ∧ (∀ halt, before.control ≠ .raised halt) ∧
      before.next settings = some ⟨.raised halt, left, last⟩ := by
  induction steps with
  | refl => exact absurd raised (running halt)
  | @tail middle config steps stepped ih =>
    obtain ⟨control, left, last⟩ := config
    cases raised
    by_cases already : ∃ halt, middle.control = .raised halt
    · obtain ⟨other, there⟩ := already
      obtain ⟨control, tasks, state⟩ := middle
      cases there
      -- A program that is halted stays so, for the same reason.
      have same : other = halt := by
        cases tasks with
        | nil => cases stepped
        | cons task tasks => cases task <;> cases stepped <;> rfl
      exact ih (congrArg Control.raised same)
    · exact ⟨middle, left, last, steps, not_exists.mp already, stepped⟩

/-- A run that is halted by a fault comes to a step that raises it. -/
theorem cause_of_fault {statements : List Node} {token : Token} {fault : Fault} {after : State}
    (failed : executeAll settings statements state = .error (.fault token fault) after) :
    ∃ config left last, Steps settings ⟨.done, [.rest statements], state⟩ config ∧
      config.next settings = some ⟨.raised (.fault token fault), left, last⟩ ∧ config.Faults token fault := by
  have follows : Follows settings (executeAll settings statements) ⟨.done, [.rest statements]⟩
      fun _ => ⟨.done, []⟩ := executeAll_follows statements
  have led := follows [] state
  rw [failed] at led
  obtain ⟨config, left, last, steps, running, stepped⟩ :=
    raising_step (led Halt.noConfusion) (fun _ => Control.noConfusion) rfl
  exact ⟨config, left, last, steps, stepped, faults_of_next running stepped⟩

end Steps

end Cfpl.Run
