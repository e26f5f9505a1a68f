import Cfpl.Proofs.Node.Origin
import Cfpl.Proofs.Run.Gives
import Cfpl.Proofs.Run.Store
import Cfpl.Proofs.Source.Literal

/-! One invariant of a run in small steps. Everything that is left to be done was read from proper tokens,
every value at hand is proper, a program is only halted by its own faults, and the variables fit the
ledger. Every step keeps it, and changes the variables in one of the known ways. -/

namespace Cfpl.Run

open Node (ExpressionFrom StatementFrom)

def Operand.Proper : Operand → Prop
  | .assign _ | .unary _ => True
  | .logical _ node | .left _ node => ExpressionFrom Token.Proper node
  | .right _ value => value.Proper

def Use.Proper : Use → Prop
  | .discard | .output => True
  | .declare _ dataType => ∃ type, dataType = some type ∧ type.symbol.isDataType
  | .branch thenBranch elseBranch => StatementFrom Token.Proper thenBranch ∧
    (elseBranch.isAbsent ∨ StatementFrom Token.Proper elseBranch)
  | .loop condition body => ExpressionFrom Token.Proper condition ∧ StatementFrom Token.Proper body

def Task.Proper : Task → Prop
  | .rest nodes => ∀ node ∈ nodes, StatementFrom Token.Proper node
  | .again condition body => ExpressionFrom Token.Proper condition ∧ StatementFrom Token.Proper body
  | .leave | .fields _ _ => True

def Control.Proper : Control → Prop
  | .evaluate node operands use =>
    ExpressionFrom Token.Proper node ∧ (∀ operand ∈ operands, operand.Proper) ∧ use.Proper
  | .value held operands use => held.Proper ∧ (∀ operand ∈ operands, operand.Proper) ∧ use.Proper
  | .execute node => StatementFrom Token.Proper node
  | .done => True
  | .raised halt => halt.IsFault

structure Move.Proper (move : Move) : Prop where
  control : move.control.Proper
  waits : ∀ task ∈ move.waits, task.Proper

structure Config.Proper (config : Config) (ledger : Ledger) : Prop where
  control : config.control.Proper
  tasks : ∀ task ∈ config.tasks, task.Proper
  fits : Fits config.state.scopes ledger

variable {settings : Settings} {scopes : Scopes} {ledger : Ledger}

theorem Move.Proper.only {control : Control} (proper : control.Proper) : Move.Proper ⟨control, []⟩ :=
  ⟨proper, List.forall_mem_nil _⟩

section Moves

abbrev Still (move : Run Move) (scopes : Scopes) : Prop :=
  Gives move scopes fun move after => after = scopes ∧ move.Proper

abbrev Assigning (move : Run Move) (scopes : Scopes) (ledger : Ledger) : Prop :=
  Gives move scopes fun move after => Change scopes ledger after ledger ∧ move.Proper

private theorem Still.assigning {move : Run Move} (still : Still move scopes) : Assigning move scopes ledger := by
  apply Gives.mono still
  intro move _ given
  obtain ⟨rfl, proper⟩ := given
  exact ⟨.same _ _, proper⟩

def Declared (dataType : Symbol) (given : Option Kind) (value : Value) : Prop :=
  value.Proper ∧ ∀ number, (Declaration.mk number dataType given).Allows value

private theorem declared_initial {dataType : Symbol} {value : Value} (given : Option Kind)
    (found : Value.initial? dataType = some value) : Declared dataType given value := by
  refine ⟨Value.proper_initial? found, fun number => ⟨?_, fun _ => Value.kind_of_initial? found, ?_, ?_⟩⟩ <;>
    cases dataType <;> cases found <;> simp [Symbol.isDataType, Value.kind]

private theorem text_of_initial? {dataType : Symbol} (isType : dataType.isDataType)
    (missing : Value.initial? dataType = none) : dataType = .stringType := by
  revert isType missing
  cases dataType <;> simp [Symbol.isDataType, Value.initial?]

private theorem declared_none {dataType : Symbol} {given : Option Kind} (isType : dataType.isDataType)
    (missing : Value.initial? dataType = none) (bare : given ≠ some .string) :
    Declared dataType given .none := by
  have isText := text_of_initial? isType missing
  exact ⟨trivial, fun number => ⟨isType, fun plain => absurd isText plain,
    fun _ held => absurd held bare, fun _ => ⟨isText, bare⟩⟩⟩

private theorem sure_startingValue (name : String) {dataType : Token} (isType : dataType.symbol.isDataType) :
    Sure (startingValue name dataType) scopes fun value after =>
      after = scopes ∧ Declared dataType.symbol none value := by
  unfold startingValue
  split
  · next value found => exact .pure ⟨rfl, declared_initial none found⟩
  · next missing =>
    refine .ofQuiet ((quiet_emit _).bind (.pure _)) ⟨rfl, declared_none isType missing ?_⟩
    exact Option.some_ne_none _ |>.symm

private theorem sure_declaredValue (name : String) {dataType : Token} {value : Value}
    (isType : dataType.symbol.isDataType) (proper : value.Proper) :
    Sure (declaredValue name dataType value) scopes fun stored after =>
      after = scopes ∧ Declared dataType.symbol (some value.kind) stored := by
  unfold declaredValue
  have some_ := Kind.isSome_ofDataType? dataType.symbol
  rw [isType] at some_
  obtain ⟨kind, found⟩ := Option.isSome_iff_exists.mp some_
  rw [found]
  dsimp only
  split
  · next same =>
    refine .pure ⟨rfl, proper, fun number => ⟨isType, fun _ => by rw [found, same], fun isText _ => ?_, ?_⟩⟩
    · rw [show dataType.symbol = .stringType from isText] at found
      cases found
      exact same
    · intro absent
      rw [← same, absent] at found
      generalize dataType.symbol = symbol at found
      cases symbol <;> cases found
  · next apart =>
    refine .ofQuiet ((quiet_emit _).bind (.pure _)) ⟨rfl, ?_⟩
    cases missing : Value.initial? dataType.symbol with
    | some initial => exact declared_initial _ missing
    | none =>
      refine declared_none isType missing fun same => apart ?_
      rw [text_of_initial? isType missing] at found
      cases found
      exact Option.some.inj same

private theorem sure_declareAs {name dataType : Token} {given : Option Value}
    (isType : dataType.symbol.isDataType) (proper : ∀ value ∈ given, value.Proper) :
    Sure (declareAs settings name (some dataType) given) scopes fun _ after => ∃ value,
      after = scopes.define name.lexeme value ∧ Declared dataType.symbol (given.map Value.kind) value := by
  have chosen : Sure (declarationValue name.lexeme (some dataType) given) scopes fun value after =>
      after = scopes ∧ Declared dataType.symbol (given.map Value.kind) value := by
    cases given with
    | none => exact sure_startingValue name.lexeme isType
    | some value => exact sure_declaredValue name.lexeme isType (proper value rfl)
  unfold declareAs
  apply chosen.bind
  intro value middle held
  obtain ⟨rfl, declared⟩ := held
  have defined : Sure (define name.lexeme value) middle fun _ after =>
      after = middle.define name.lexeme value := by
    intro state same
    subst same
    exact ⟨(), _, rfl, rfl⟩
  apply defined.bind
  intro _ after made
  exact .ofQuiet (quiet_record settings _) ⟨value, made, declared⟩

section Expressions

variable {operands : List Operand} {use : Use} (waiting : ∀ operand ∈ operands, operand.Proper)
  (proper : use.Proper)
include waiting proper

private theorem still_enterExpression (fits : Fits scopes ledger) {node : Node}
    (from_ : ExpressionFrom Token.Proper node) : Still (enterExpression operands use node) scopes := by
  have also {operand : Operand} (held : operand.Proper) : ∀ other ∈ operand :: operands, other.Proper :=
    List.forall_mem_cons.mpr ⟨held, waiting⟩
  cases from_ with
  | truth value => exact .pure ⟨rfl, .only ⟨trivial, waiting, proper⟩⟩
  | literal given carries =>
    obtain ⟨value, found, held⟩ := given carries
    rw [found]
    exact .pure ⟨rfl, .only ⟨held, waiting, proper⟩⟩
  | grouping body => exact .pure ⟨rfl, .only ⟨body, waiting, proper⟩⟩
  | unary _ _ right => exact .pure ⟨rfl, .only ⟨right, also trivial, proper⟩⟩
  | binary _ _ left right => exact .pure ⟨rfl, .only ⟨left, also right, proper⟩⟩
  | logical _ _ left right => exact .pure ⟨rfl, .only ⟨left, also right, proper⟩⟩
  | reference given name =>
    apply Gives.bind (gives_lookup _)
    intro value found
    exact .pure ⟨rfl, .only ⟨fits.proper_get? found, waiting, proper⟩⟩
  | assign _ _ value => exact .pure ⟨rfl, .only ⟨value, also trivial, proper⟩⟩

private theorem assigning_supply {value : Value} {operand : Operand} (held : value.Proper)
    (fitting : operand.Proper) : Assigning (supply settings value operands use operand) scopes ledger := by
  cases operand with
  | assign name =>
    refine Gives.before (fun value => ⟨.value value operands use, []⟩)
      ((gives_assignTraced name value).mono ?_) fun _ => .pure _
    intro _ after given
    obtain ⟨rfl, assigned⟩ := given
    exact ⟨.assign held assigned, .only ⟨held, waiting, proper⟩⟩
  | unary operator =>
    refine Still.assigning (Gives.bind (gives_ofExcept Operation.proper_unary) fun result given => ?_)
    exact .pure ⟨rfl, .only ⟨given, waiting, proper⟩⟩
  | logical operator right =>
    simp only [supply]
    split
    · exact .pure ⟨.same _ _, .only ⟨held, waiting, proper⟩⟩
    · exact .pure ⟨.same _ _, .only ⟨fitting, waiting, proper⟩⟩
  | left operator right =>
    exact .pure ⟨.same _ _, .only ⟨fitting, List.forall_mem_cons.mpr ⟨held, waiting⟩, proper⟩⟩
  | right operator first =>
    refine Still.assigning (Gives.bind (gives_ofExcept (Operation.proper_binary fitting held))
      fun result given => ?_)
    exact .pure ⟨rfl, .only ⟨given, waiting, proper⟩⟩

end Expressions

abbrev Certain (move : Run Move) (scopes : Scopes) (ledger rest : Ledger) : Prop :=
  Sure move scopes fun move after => Change scopes ledger after rest ∧ move.Proper

private theorem certain_declare {name dataType : Token} {given : Option Value}
    (isType : dataType.symbol.isDataType) (proper : ∀ value ∈ given, value.Proper) :
    Certain (do declareAs settings name (some dataType) given; return ⟨.done, []⟩) scopes ledger
      (ledger.declare name.lexeme dataType.symbol (given.map Value.kind)) := by
  apply (sure_declareAs isType proper).bind
  intro _ after made
  obtain ⟨value, rfl, held, allowed⟩ := made
  exact .pure ⟨.declare held (allowed _), .only trivial⟩

private theorem still_consume {value : Value} {use : Use} (proper : use.Proper)
    (plain : ∀ name dataType, use ≠ .declare name dataType) :
    Still (consume settings value use) scopes := by
  cases use with
  | discard => exact .pure ⟨rfl, .only trivial⟩
  | output => exact .quietly (quiet_emit _) (.pure ⟨rfl, .only trivial⟩)
  | declare name dataType => exact absurd rfl (plain name dataType)
  | branch thenBranch elseBranch =>
    refine .quietly (quiet_record settings _) ?_
    split
    · exact .pure ⟨rfl, .only proper.1⟩
    · split
      · exact .pure ⟨rfl, .only trivial⟩
      · next some_ => exact .pure ⟨rfl, .only (proper.2.resolve_left some_)⟩
  | loop condition body =>
    refine .quietly (quiet_record settings _) ?_
    split
    · exact .pure ⟨rfl, proper.2, List.forall_mem_singleton.mpr proper⟩
    · exact .pure ⟨rfl, .only trivial⟩

private theorem still_enterStatement {node : Node} (from_ : StatementFrom Token.Proper node)
    (noBlock : ∀ body, node ≠ .block body)
    (noBare : ∀ name initial dataType, node = .declare name initial dataType → ¬initial.isAbsent) :
    Still (enterStatement settings node) scopes := by
  have none : ∀ operand ∈ ([] : List Operand), operand.Proper := List.forall_mem_nil _
  refine .quietly (quiet_record settings _) ?_
  cases from_ with
  | expression body => exact .pure ⟨rfl, .only ⟨body, none, trivial⟩⟩
  | output body => exact .pure ⟨rfl, .only ⟨body, none, trivial⟩⟩
  | @declare name dataType initial _ _ _ isType from_ =>
    have some_ := noBare name initial (some dataType) rfl
    simp only [enterBody, if_neg some_]
    refine .pure ⟨rfl, .only ⟨from_.resolve_left ?_, none, dataType, rfl, isType⟩⟩
    intro same
    subst same
    exact some_ rfl
  | block => exact absurd rfl (noBlock _)
  | @input names some_ _ =>
    apply Gives.bind ((gives_readFields some_).mono fun _ _ same => ⟨same, trivial⟩)
    intro fields _
    cases fields with
    | none => exact .pure ⟨rfl, .only trivial⟩
    | some fields => exact .pure ⟨rfl, trivial, List.forall_mem_singleton.mpr trivial⟩
  | branch condition thenBranch _ =>
    exact .pure ⟨rfl, .only ⟨condition, none, thenBranch, .inl rfl⟩⟩
  | branchElse condition thenBranch _ elseBranch _ =>
    exact .pure ⟨rfl, .only ⟨condition, none, thenBranch, .inr elseBranch⟩⟩
  | loop condition body _ => exact .pure ⟨rfl, .only ⟨condition, none, condition, body⟩⟩

private theorem certain_block {body : List Node} (from_ : ∀ node ∈ body, StatementFrom Token.Proper node) :
    Certain (enterStatement settings (.block body)) scopes ledger ledger.enter := by
  refine .quietly (quiet_record settings _) ?_
  have entered : Sure enterScope scopes fun _ after => after = scopes.enter := by
    intro state same
    subst same
    exact ⟨(), _, rfl, rfl⟩
  apply entered.bind
  intro _ after same
  subst same
  refine .pure ⟨.enter, trivial, ?_⟩
  exact List.forall_mem_cons.mpr ⟨from_, List.forall_mem_singleton.mpr trivial⟩

private theorem assigning_resume {task : Task} (proper : task.Proper) (plain : task ≠ .leave) :
    Assigning (resume settings task) scopes ledger := by
  have none : ∀ operand ∈ ([] : List Operand), operand.Proper := List.forall_mem_nil _
  cases task with
  | rest nodes =>
    cases nodes with
    | nil => exact .pure ⟨.same _ _, .only trivial⟩
    | cons first others =>
      obtain ⟨head, tail⟩ := List.forall_mem_cons.mp proper
      exact .pure ⟨.same _ _, head, List.forall_mem_singleton.mpr tail⟩
  | leave => exact absurd rfl plain
  | again condition body => exact .pure ⟨.same _ _, .only ⟨proper.1, none, proper⟩⟩
  | fields names fields =>
    cases names with
    | nil => exact .pure ⟨.same _ _, .only trivial⟩
    | cons name names =>
      cases fields with
      | nil => exact .pure ⟨.same _ _, .only trivial⟩
      | cons field fields =>
        refine Gives.before (fun _ => ⟨.done, [.fields names fields]⟩) ((gives_inputField name field).mono ?_)
          fun _ => .pure _
        intro _ after which
        rcases which with rfl | ⟨value, held, assigned⟩
        · exact ⟨.same _ _, trivial, List.forall_mem_singleton.mpr trivial⟩
        · exact ⟨.assign held assigned, trivial, List.forall_mem_singleton.mpr trivial⟩

private theorem change_leave (fits : Fits scopes ledger) : Change scopes ledger scopes.leave ledger.leave := by
  have same : scopes.outer.length = ledger.outer.length := Nat.succ.inj fits.length
  unfold Scopes.leave Ledger.leave
  cases outer : scopes.outer with
  | nil =>
    rw [outer] at same
    rw [List.eq_nil_of_length_eq_zero same.symm]
    exact .same _ _
  | cons frame frames =>
    cases logs : ledger.outer with
    | nil =>
      rw [outer, logs] at same
      cases same
    | cons log others =>
      refine .outward 1 ?_ ?_ rfl
      · simp [Scopes.frames, outer]
      · simp [Ledger.logs, logs]

private theorem certain_leave (fits : Fits scopes ledger) :
    Certain (resume settings .leave) scopes ledger ledger.leave := by
  intro state same
  subst same
  exact ⟨_, _, rfl, change_leave fits, .only trivial⟩

structure Advances (scopes : Scopes) (ledger : Ledger) (later : Config) (rest : Ledger) : Prop where
  change : Change scopes ledger later.state.scopes rest
  control : later.control.Proper
  tasks : ∀ task ∈ later.tasks, task.Proper

section After

variable {move : Run Move} {tasks : List Task} {state : State} {rest : Ledger}
  (waiting : ∀ task ∈ tasks, task.Proper)
include waiting

private theorem advances_assigning (assigning : Assigning move state.scopes ledger) :
    Advances state.scopes ledger (.after tasks (move state)) ledger := by
  have known := assigning state rfl
  generalize move state = result at known ⊢
  cases result with
  | ok move after => exact ⟨known.1, known.2.control, List.forall_mem_append.mpr ⟨known.2.waits, waiting⟩⟩
  | error halt after =>
    refine ⟨?_, known.1, waiting⟩
    rw [show (Config.after tasks (.error halt after)).state.scopes = state.scopes from known.2]
    exact .same _ _

private theorem advances_sure (sure : Sure move state.scopes fun move after =>
      Change state.scopes ledger after rest ∧ move.Proper) :
    Advances state.scopes ledger (.after tasks (move state)) rest := by
  obtain ⟨move, after, ran, change, proper⟩ := sure state rfl
  rw [ran]
  exact ⟨change, proper.control, List.forall_mem_append.mpr ⟨proper.waits, waiting⟩⟩

private theorem advances_execute {node : Node} (from_ : StatementFrom Token.Proper node) :
    Advances state.scopes ledger (.after tasks (enterStatement settings node state))
      (ledger.after ⟨.execute node, tasks, state⟩) := by
  -- Of all statements only blocks and declarations without a value change the ledger when they are entered.
  by_cases block : ∃ body, node = .block body
  · obtain ⟨body, rfl⟩ := block
    cases from_ with
    | block body => exact advances_sure waiting (certain_block body)
  · by_cases bare : ∃ name initial dataType, node = .declare name initial dataType ∧ initial.isAbsent
    · obtain ⟨name, initial, dataType, rfl, absent⟩ := bare
      cases from_ with
      | @declare _ type _ _ _ _ isType _ =>
        have kept : ledger.after ⟨.execute (.declare name initial (some type)), tasks, state⟩ =
            ledger.declare name.lexeme type.symbol none := if_pos absent
        rw [kept]
        refine advances_sure waiting (.quietly (quiet_record settings _) ?_)
        simp only [enterBody, if_pos absent]
        exact certain_declare isType fun _ given => absurd given (Option.not_mem_none _)
    · have noBlock : ∀ body, node ≠ .block body := fun body same => block ⟨body, same⟩
      have noBare : ∀ name initial dataType, node = .declare name initial dataType → ¬initial.isAbsent :=
        fun name initial dataType same absent => bare ⟨name, initial, dataType, same, absent⟩
      have kept : ledger.after ⟨.execute node, tasks, state⟩ = ledger := by
        cases from_ with
        | declare => exact if_neg (noBare _ _ _ rfl)
        | block => exact absurd rfl (noBlock _)
        | _ => rfl
      rw [kept]
      exact advances_assigning waiting (still_enterStatement from_ noBlock noBare).assigning

end After

/-- Every step keeps the invariant, and changes the variables in one of the known ways. -/
theorem Config.Proper.advances {config later : Config} (proper : config.Proper ledger)
    (stepped : config.next settings = some later) :
    Advances config.state.scopes ledger later (ledger.after config) := by
  obtain ⟨control, tasks, state⟩ := config
  obtain ⟨held, waiting, fits⟩ := proper
  cases control with
  | evaluate node operands use =>
    cases stepped
    exact advances_assigning waiting (still_enterExpression held.2.1 held.2.2 fits held.1).assigning
  | value value operands use =>
    obtain ⟨valueHeld, operandsHeld, useHeld⟩ := held
    cases operands with
    | cons operand operands =>
      cases stepped
      obtain ⟨head, tail⟩ := List.forall_mem_cons.mp operandsHeld
      exact advances_assigning waiting (assigning_supply tail useHeld valueHeld head)
    | nil =>
      cases stepped
      -- Of all uses of a value only a declaration changes the ledger.
      by_cases declares : ∃ name dataType, use = .declare name dataType
      · obtain ⟨name, dataType, rfl⟩ := declares
        obtain ⟨type, rfl, isType⟩ := useHeld
        have given : ∀ other ∈ some value, other.Proper := by
          intro _ same
          cases same
          exact valueHeld
        exact advances_sure waiting (certain_declare isType given)
      · have plain : ∀ name dataType, use ≠ .declare name dataType :=
          fun name dataType same => declares ⟨name, dataType, same⟩
        have kept : ledger.after ⟨.value value [] use, tasks, state⟩ = ledger := by
          cases use <;> first | rfl | exact absurd rfl (plain _ _)
        rw [kept]
        exact advances_assigning waiting (still_consume useHeld plain).assigning
  | execute node =>
    cases stepped
    exact advances_execute waiting held
  | done =>
    cases tasks with
    | nil => cases stepped
    | cons task tasks =>
      cases stepped
      obtain ⟨head, tail⟩ := List.forall_mem_cons.mp waiting
      by_cases leaves : task = .leave
      · subst leaves
        exact advances_sure tail (certain_leave fits)
      · have kept : ledger.after ⟨.done, task :: tasks, state⟩ = ledger := by
          cases task <;> first | rfl | exact absurd rfl leaves
        rw [kept]
        exact advances_assigning tail (assigning_resume head leaves)
  | raised halt =>
    cases tasks with
    | nil => cases stepped
    | cons task tasks =>
      obtain ⟨_, tail⟩ := List.forall_mem_cons.mp waiting
      cases task with
      | leave =>
        cases stepped
        exact ⟨change_leave fits, held, tail⟩
      | _ =>
        cases stepped
        exact ⟨.same _ _, held, tail⟩

end Moves

end Cfpl.Run
