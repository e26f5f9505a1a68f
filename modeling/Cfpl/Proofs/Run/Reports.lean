import Cfpl.Proofs.Reading.Reports
import Cfpl.Proofs.Run.Congruence
import Cfpl.Proofs.Run.Reached
import Cfpl.Proofs.Source.Lines

/-! Where a run reports. Its statements are made of tokens of the text, and what it reports it reports at the
tokens of its statements; so every report about a text or a run of it is on a line of the text. -/

namespace Cfpl

namespace Node

variable {given : Token → Prop} {node : Node}

structure MadeOf (given : Token → Prop) (node : Node) : Prop where
  names : ∀ token ∈ node.names, given token
  marks : ∀ token ∈ node.marks, given token

private theorem madeOf_all {nodes : List Node} (made : ∀ node ∈ nodes, node.MadeOf given) :
    (∀ token ∈ namesOfAll nodes, given token) ∧ ∀ token ∈ marksOfAll nodes, given token := by
  rw [namesOfAll_eq, marksOfAll_eq]
  refine ⟨fun token member => ?_, fun token member => ?_⟩
  · obtain ⟨node, listed, named⟩ := List.mem_flatMap.mp member
    exact (made node listed).names token named
  · obtain ⟨node, listed, marked⟩ := List.mem_flatMap.mp member
    exact (made node listed).marks token marked

theorem MadeOf.absent : Node.absent.MadeOf given := ⟨List.forall_mem_nil _, List.forall_mem_nil _⟩

theorem MadeOf.branch {condition thenBranch elseBranch : Node} (first : condition.MadeOf given)
    (second : thenBranch.MadeOf given) (third : elseBranch.MadeOf given) :
    (Node.branch condition thenBranch elseBranch).MadeOf given where
  names := List.forall_mem_append.mpr ⟨List.forall_mem_append.mpr ⟨first.names, second.names⟩, third.names⟩
  marks := List.forall_mem_append.mpr ⟨List.forall_mem_append.mpr ⟨first.marks, second.marks⟩, third.marks⟩

private theorem ExpressionFrom.madeOf (from_ : ExpressionFrom given node) : node.MadeOf given := by
  induction from_ with
  | truth value => exact ⟨List.forall_mem_nil _, List.forall_mem_nil _⟩
  | literal held carries => exact ⟨List.forall_mem_nil _, List.forall_mem_nil _⟩
  | grouping _ body => exact ⟨body.names, body.marks⟩
  | unary held _ _ right => exact ⟨right.names, List.forall_mem_cons.mpr ⟨held, right.marks⟩⟩
  | binary held _ _ _ left right | logical held _ _ _ left right =>
    exact ⟨List.forall_mem_append.mpr ⟨left.names, right.names⟩,
      List.forall_mem_append.mpr ⟨left.marks, List.forall_mem_cons.mpr ⟨held, right.marks⟩⟩⟩
  | reference held _ => exact ⟨List.forall_mem_singleton.mpr held, List.forall_mem_nil _⟩
  | assign held _ _ value => exact ⟨List.forall_mem_cons.mpr ⟨held, value.names⟩, value.marks⟩

private theorem StatementFrom.madeOf (from_ : StatementFrom given node) : node.MadeOf given := by
  induction from_ with
  | expression body => exact ⟨body.madeOf.names, body.madeOf.marks⟩
  | output body => exact ⟨body.madeOf.names, body.madeOf.marks⟩
  | @declare name dataType initial held _ typed _ initial_ =>
    have starts : initial.MadeOf given := by
      rcases initial_ with rfl | expression
      · exact .absent
      · exact expression.madeOf
    exact ⟨List.forall_mem_cons.mpr ⟨held, starts.names⟩, List.forall_mem_cons.mpr ⟨typed, starts.marks⟩⟩
  | block _ inside =>
    obtain ⟨names, marks⟩ := madeOf_all inside
    exact ⟨names, marks⟩
  | input _ names => exact ⟨fun token member => (names token member).1, List.forall_mem_nil _⟩
  | branch condition _ _ thenBranch => exact condition.madeOf.branch thenBranch .absent
  | branchElse condition _ _ _ _ thenBranch elseBranch =>
    exact condition.madeOf.branch thenBranch elseBranch
  | loop condition _ _ body =>
    have first := condition.madeOf
    exact ⟨List.forall_mem_append.mpr ⟨first.names, body.names⟩,
      List.forall_mem_append.mpr ⟨first.marks, body.marks⟩⟩

end Node

namespace Run

variable {α β : Type} {before : List Event} {given : Token → Prop} {allowed : Diagnostic → Prop}

def State.Told (before : List Event) (allowed : Diagnostic → Prop) (state : State) : Prop :=
  ∃ new, state.events.toList = before ++ new ∧ ∀ diagnostic, .report diagnostic ∈ new → allowed diagnostic

def Tells (before : List Event) (given : Token → Prop) (allowed : Diagnostic → Prop) (run : Run α) : Prop :=
  ∀ state : State, state.Told before allowed → match run state with
    | .ok _ after => after.Told before allowed
    | .error halt after => halt.At given ∧ after.Told before allowed

theorem State.Told.emit {state : State} (told : state.Told before allowed) {event : Event}
    (known : ∀ diagnostic, event = .report diagnostic → allowed diagnostic) :
    (state.emit event).Told before allowed := by
  obtain ⟨new, split, reports⟩ := told
  refine ⟨new ++ [event], by simp [State.emit, split], fun diagnostic member => ?_⟩
  rcases List.mem_append.mp member with earlier | last
  · exact reports diagnostic earlier
  · exact known diagnostic (List.mem_singleton.mp last).symm

theorem State.Told.record {state : State} (told : state.Told before allowed) (settings : Settings)
    (entry : TraceEntry) : (state.record settings entry).Told before allowed := by
  unfold State.record
  split
  · exact told
  · exact told

namespace Tells

theorem bind {run : Run α} {next : α → Run β} (first : Tells before given allowed run)
    (second : ∀ a, Tells before given allowed (next a)) : Tells before given allowed (run >>= next) := by
  intro state told
  have begun := first state told
  rw [run_bind]
  generalize run state = result at begun ⊢
  cases result with
  | ok a after => exact second a after begun
  | error halt after => exact begun

theorem inScope {run : Run α} (inside : Tells before given allowed run) :
    Tells before given allowed (Run.inScope run) := by
  intro state told
  have ended := inside state.enterScope told
  unfold Run.inScope
  generalize run state.enterScope = result at ended ⊢
  cases result with
  | ok a after => exact ended
  | error halt after => exact ended

end Tells

private theorem tells_emit {event : Event} (known : ∀ diagnostic, event = .report diagnostic → allowed diagnostic) :
    Tells before given allowed (emit event) :=
  fun _ told => told.emit known

private theorem tells_readLine : Tells before given allowed readLine := by
  intro state told
  have left : State.Told before allowed { state with pending := state.pending.drop 1 } := told
  exact left.emit fun _ same => nomatch same

private theorem tells_lookup {name : Token} (known : given name) : Tells before given allowed (lookup name) := by
  intro state told
  unfold lookup
  cases state.scopes.get? name.lexeme with
  | some value => exact told
  | none => exact ⟨known, told⟩

private theorem tells_tryAssign (name : Token) (value : Value) : Tells before given allowed (tryAssign name value) := by
  intro state told
  unfold tryAssign
  cases state.scopes.assign name.lexeme value with
  | ok scopes => exact told
  | error fault => exact told

private theorem tells_raise {α : Type} {halt : Halt} (known : halt.At fun token => given token ∨ given token) :
    Tells before given allowed (throw halt : Run α) := by
  refine fun _ told => ⟨?_, told⟩
  cases halt with
  | fault token fault => exact or_self_iff.mp known
  | misuse misuse => trivial
  | unfinished => trivial

private theorem tells_output (text : String) : Tells before given allowed (emit (.output text)) := by
  refine tells_emit fun diagnostic same => ?_
  cases same

private theorem tells_report {token : Token} (message : String) (known : allowed (.atToken token message)) :
    Tells before given allowed (report (.atToken token message)) := by
  refine tells_emit fun diagnostic same => ?_
  cases same
  exact known

def telling (before : List Event) (given : Token → Prop) (allowed : Diagnostic → Prop)
    (knows : ∀ token message, given token → allowed (.atToken token message)) {settings other : Settings}
    (rounds : settings.rounds = other.rounds) : Congruence settings other where
  rounds := rounds
  lines := 0
  named := given
  marked := given
  opened _ := True
  opened_succ _ := trivial
  Relates _ _ run _ := Tells before given allowed run
  pure _ _ told := told
  raise known := tells_raise known
  bind first second := .bind first second
  inScope inside := .inScope inside
  record entry _ told := told.record settings entry
  output text := tells_output text
  report message known := tells_report message (knows _ message (or_self_iff.mp known))
  readLine := tells_readLine
  lookup known := tells_lookup known
  tryAssign value _ := tells_tryAssign _ value
  define _ _ _ _ told := told

variable (settings : Settings)

theorem tells_executeAll (knows : ∀ token message, given token → allowed (.atToken token message))
    {statements : List Node} (made : ∀ node ∈ statements, node.MadeOf given) :
    Tells before given allowed (executeAll settings statements) := by
  obtain ⟨names, marks⟩ := Node.madeOf_all made
  exact (telling before given allowed knows (Eq.refl settings.rounds)).executeAllSame rfl 0 ⟨names, marks⟩
    fun closed => absurd trivial closed

private theorem told_halted {state : State} (told : state.Told before (·.At given)) {halt : Halt}
    (at_ : halt.At given) :
    (Session.halted settings state halt).2.Told before (·.At given) := by
  cases halt with
  | fault token fault =>
    refine (told.record settings (.halt fault.message)).emit fun diagnostic same => ?_
    cases same
    exact .stopping fault.message at_
  | misuse misuse => exact told
  | unfinished => exact told

private theorem told_conclude {statements : List Node} (made : ∀ node ∈ statements, node.MadeOf given)
    {state : State} (told : state.Told before (·.At given)) :
    (Session.conclude settings statements state).2.Told before (·.At given) := by
  have ended := tells_executeAll settings (fun token message => Diagnostic.At.token message) made state told
  unfold Session.conclude
  generalize executeAll settings statements state = result at ended ⊢
  cases result with
  | ok _ after => exact ended
  | error halt after => exact told_halted settings ended.2 ended.1

end Run

namespace Session

variable {given : Token → Prop}

private theorem reports_of_run (session : Session) (settings : Run.Settings) (input : List String)
    (reported : List Diagnostic) {statements : List Node} (made : ∀ node ∈ statements, node.MadeOf given) :
    ∃ others, (session.run settings input reported statements).1.events.filterMap Event.diagnostic? =
        reported ++ others ∧ ∀ diagnostic ∈ others, diagnostic.At given := by
  have started : (session.start input reported).Told (reported.map .report) (·.At given) :=
    ⟨[], by simp [start], fun _ member => nomatch member⟩
  obtain ⟨new, split, reports⟩ := Run.told_conclude settings made started
  refine ⟨new.filterMap Event.diagnostic?, ?_, fun diagnostic member => ?_⟩
  · unfold run
    dsimp only
    rw [split, List.filterMap_append, List.filterMap_map]
    congr 1
    exact List.filterMap_some
  · obtain ⟨event, listed, shown⟩ := List.mem_filterMap.mp member
    cases event with
    | report other =>
      cases shown
      exact reports diagnostic listed
    | output text => cases shown
    | input line => cases shown

end Session

namespace Program

private theorem madeOf_ofSource (source : String) :
    ∀ node ∈ (ofSource source).statements, node.MadeOf (· ∈ Source.tokens source) := fun node member =>
  (statements_from_tokens source node member).madeOf

private theorem reports_ofSource (source : String) :
    ∃ others, (ofSource source).diagnostics = Source.diagnostics source ++ others ∧
      ∀ diagnostic ∈ others, diagnostic.At (· ∈ Source.tokens source) := by
  obtain ⟨program, found, _⟩ := ofTokens?_tokens source
  refine ⟨program.diagnostics, ?_, reports_of_read found⟩
  unfold ofSource
  rw [found]

end Program

namespace Source

def HasLine (source : String) (line : Int) : Prop := 1 ≤ line ∧ line ≤ (1 + lineFeeds source.toList : Nat)

/-- Reports about the text itself and then others, which are on lines of its tokens. -/
structure Reports (source : String) (reports : List Diagnostic) : Prop where
  split : ∃ others, reports = diagnostics source ++ others ∧
    ∀ diagnostic ∈ others, ∃ token ∈ tokens source, diagnostic.line = token.line
  lines : ∀ diagnostic ∈ reports, HasLine source diagnostic.line

private theorem Reports.ofSplit {source : String} {others : List Diagnostic}
    (placed : ∀ diagnostic ∈ others, diagnostic.At (· ∈ tokens source)) :
    Reports source (diagnostics source ++ others) where
  split := ⟨others, rfl, fun diagnostic member => (placed diagnostic member).line⟩
  lines diagnostic member := by
    rcases List.mem_append.mp member with own | other
    · exact line_of_mem_diagnostics own
    · obtain ⟨token, listed, same⟩ := (placed diagnostic other).line
      rw [same]
      exact line_of_mem_tokens listed

private theorem reports_of_run {source : String} (session : Session) (settings : Run.Settings) (input : List String)
    {statements : List Node} (made : ∀ node ∈ statements, node.MadeOf (· ∈ tokens source)) :
    Reports source ((session.run settings input (Program.ofSource source).diagnostics
      statements).1.events.filterMap Event.diagnostic?) := by
  obtain ⟨read, split, atRead⟩ := Program.reports_ofSource source
  obtain ⟨others, whole, atRun⟩ :=
    session.reports_of_run settings input (Program.ofSource source).diagnostics made
  rw [whole, split, List.append_assoc]
  exact .ofSplit (List.forall_mem_append.mpr ⟨atRead, atRun⟩)

/-- Lines are right all the way from a text to its run. A token lies on the line of the last character that
spells it, and the token at the end on the last line, so the lines of tokens never decrease. Every report
is on a line of the text, and those that are not about the text itself are on lines of its tokens. -/
theorem lines_of_source (source : String) :
    textOf (pieces source) = source.toList ∧
    tokens source = (pieces source).filterMap Piece.token? ++ [endToken source] ∧
    (∀ earlier piece later, pieces source = earlier ++ piece :: later → piece.text ≠ [] ∧
      ∀ token : Token, piece.token? = some token → token.lexeme = .ofList piece.text ∧
        token.line = (1 + lineFeeds (textOf earlier ++ piece.text.dropLast) : Nat)) ∧
    (endToken source).line = (1 + lineFeeds source.toList : Nat) ∧
    (tokens source).Pairwise (fun token next => token.line ≤ next.line) ∧
    ∀ settings input,
      Reports source ((Session.runProgram settings input source).1.events.filterMap Event.diagnostic?) ∧
      ∀ session : Session,
        Reports source ((session.runText settings input source).1.events.filterMap Event.diagnostic?) := by
  have made := Program.madeOf_ofSource source
  refine ⟨textOf_pieces source, rfl, ?_, rfl, pairwise_tokens source, fun settings input => ⟨?_, ?_⟩⟩
  · intro earlier piece later split
    exact ⟨(line_of_split split).1, fun token made => token_of_split split made⟩
  · apply reports_of_run .empty settings input
    split
    · exact made
    · exact List.forall_mem_nil _
  · exact fun session => reports_of_run session settings input made

end Source

end Cfpl
