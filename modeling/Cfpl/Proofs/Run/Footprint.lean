import Cfpl.Proofs.Run.Congruence
import Cfpl.Proofs.Run.Reached
import Mathlib.Data.List.Forall2

/-! What a run leaves behind in the scopes. A statement adds no variables but the one it declares, and changes
no variables but those it mentions, whether it comes to its end or is halted somewhere inside. -/

namespace Cfpl

def Frame.Has (frame : Frame) (name : String) : Prop := (frame.get? name).isSome

/-- A scope before and after some of its variables were added, and some of those mentioned were changed. -/
structure Frame.Later (added mentioned : List String) (before after : Frame) : Prop where
  names (name : String) : after.Has name ↔ before.Has name ∨ name ∈ added
  values (name : String) : name ∉ mentioned → after.get? name = before.get? name

/-- The scopes before and after, of which only the innermost has got more variables. -/
structure Scopes.Later (added mentioned : List String) (before after : Scopes) : Prop where
  inner : before.inner.Later added mentioned after.inner
  outer : List.Forall₂ (Frame.Later [] mentioned) before.outer after.outer

namespace Node

def mentioned (node : Node) : List String := node.names.map Token.lexeme

def mentionedAmong (nodes : List Node) : List String := (namesOfAll nodes).map Token.lexeme

def declared : Node → List String
  | declare name _ _ => [name.lexeme]
  | _ => []

end Node

namespace Run

variable {α β : Type}

def final (run : Run α) (state : State) : State :=
  match run state with
  | .ok _ after => after
  | .error _ after => after

def completes (run : Run α) (state : State) : Bool :=
  match run state with
  | .ok _ _ => true
  | .error _ _ => false

def completed (settings : Settings) : List Node → State → List Node
  | [], _ => []
  | first :: rest, state =>
    if completes (execute settings first) state then
      first :: completed settings rest (final (execute settings first) state)
    else []

end Run

namespace Frame

variable {added more mentioned wider : List String} {before middle after : Frame}

theorem Later.refl (mentioned : List String) (frame : Frame) : frame.Later [] mentioned frame :=
  ⟨fun name => by simp, fun _ _ => rfl⟩

theorem Later.trans (first : before.Later added mentioned middle) (second : middle.Later more mentioned after) :
    before.Later (added ++ more) mentioned after where
  names name := by rw [second.names, first.names, List.mem_append, or_assoc]
  values name apart := (second.values name apart).trans (first.values name apart)

theorem Later.mono (later : before.Later added mentioned after) (inside : mentioned ⊆ wider) :
    before.Later added wider after where
  names := later.names
  values name apart := later.values name fun member => apart (inside member)

private theorem later_define {name : String} (known : name ∈ mentioned) (frame : Frame) (value : Value) :
    frame.Later [name] mentioned (frame.define name value) where
  names asked := by
    unfold Has
    rw [get?_define, List.mem_singleton]
    by_cases same : asked = name <;> simp [same]
  values asked apart := by
    have other : asked ≠ name := fun same => apart (same ▸ known)
    rw [get?_define, if_neg other]

private theorem later_assign? {name : String} {value : Value} (known : name ∈ mentioned)
    (assigned : before.assign? name value = some (.ok after)) : before.Later [] mentioned after := by
  unfold assign? at assigned
  obtain ⟨current, there, admitted⟩ := Option.map_eq_some_iff.mp assigned
  split at admitted
  · cases admitted
    have defined := later_define known before value
    refine ⟨fun asked => ?_, defined.values⟩
    rw [defined.names, List.mem_singleton, or_iff_left_of_imp, or_iff_left List.not_mem_nil]
    rintro rfl
    exact Option.isSome_of_eq_some there
  · cases admitted

private theorem trans_all {first second third : List Frame} (begun : List.Forall₂ (Later [] mentioned) first second)
    (ended : List.Forall₂ (Later [] mentioned) second third) :
    List.Forall₂ (Later [] mentioned) first third := by
  induction begun generalizing third with
  | nil => exact ended
  | cons one _ ih =>
    cases ended with
    | cons other others => exact .cons (one.trans other) (ih others)

end Frame

namespace Scopes

variable {added more mentioned wider : List String} {before middle after : Scopes} {depth : Nat}

theorem Later.refl (mentioned : List String) (scopes : Scopes) : scopes.Later [] mentioned scopes :=
  ⟨.refl mentioned scopes.inner, List.forall₂_same.mpr fun frame _ => .refl mentioned frame⟩

theorem Later.trans (first : before.Later added mentioned middle) (second : middle.Later more mentioned after) :
    before.Later (added ++ more) mentioned after :=
  ⟨first.inner.trans second.inner, Frame.trans_all first.outer second.outer⟩

theorem Later.mono (later : before.Later added mentioned after) (inside : mentioned ⊆ wider) :
    before.Later added wider after :=
  ⟨later.inner.mono inside, later.outer.imp fun _ _ frame => frame.mono inside⟩

private theorem later_define {name : String} (known : name ∈ mentioned) (scopes : Scopes) (value : Value) :
    scopes.Later [name] mentioned (scopes.define name value) :=
  ⟨Frame.later_define known scopes.inner value,
    List.forall₂_same.mpr fun frame _ => .refl mentioned frame⟩

/-- No variable is added behind as many scopes as the depth says, and only those mentioned are changed. -/
structure KeptBehind (mentioned : List String) (depth : Nat) (before after : Scopes) : Prop where
  count : before.frames.length = after.frames.length
  frames : List.Forall₂ (Frame.Later [] mentioned) (before.frames.drop depth) (after.frames.drop depth)

private theorem KeptBehind.ofFrames
    (frames : List.Forall₂ (Frame.Later [] mentioned) before.frames after.frames) :
    KeptBehind mentioned depth before after :=
  ⟨frames.length_eq, List.forall₂_drop depth frames⟩

theorem KeptBehind.refl (mentioned : List String) (depth : Nat) (scopes : Scopes) :
    KeptBehind mentioned depth scopes scopes :=
  .ofFrames (List.forall₂_same.mpr fun frame _ => .refl mentioned frame)

theorem KeptBehind.trans (first : KeptBehind mentioned depth before middle)
    (second : KeptBehind mentioned depth middle after) : KeptBehind mentioned depth before after :=
  ⟨first.count.trans second.count, Frame.trans_all first.frames second.frames⟩

theorem KeptBehind.later (kept : KeptBehind mentioned 0 before after) : before.Later [] mentioned after := by
  have frames : List.Forall₂ (Frame.Later [] mentioned) before.frames after.frames := kept.frames
  cases frames with
  | cons inner outer => exact ⟨inner, outer⟩

theorem KeptBehind.leave (kept : KeptBehind mentioned (depth + 1) before.enter after) :
    KeptBehind mentioned depth before after.leave := by
  obtain ⟨inner, outer⟩ := after
  cases outer with
  | nil => exact absurd kept.count (by simp [Scopes.frames, enter])
  | cons frame outer => exact ⟨Nat.succ.inj kept.count, kept.frames⟩

private theorem kept_define (opened : 0 < depth) (scopes : Scopes) (name : String) (value : Value) :
    KeptBehind mentioned depth scopes (scopes.define name value) := by
  obtain ⟨depth, rfl⟩ := Nat.exists_eq_succ_of_ne_zero (Nat.ne_of_gt opened)
  exact ⟨rfl, List.forall₂_same.mpr fun frame _ => .refl mentioned frame⟩

private theorem kept_assignAmong {name : String} {value : Value} (known : name ∈ mentioned)
    {frames after : List Frame} (assigned : assignAmong name value frames = .ok after) :
    List.Forall₂ (Frame.Later [] mentioned) frames after := by
  induction frames generalizing after with
  | nil => cases assigned
  | cons frame frames ih =>
    rcases Run.assignAmong_cases assigned with ⟨later, found, rfl⟩ | ⟨others, inner, rfl⟩
    · exact .cons (Frame.later_assign? known found) (List.forall₂_same.mpr fun frame _ => .refl mentioned frame)
    · exact .cons (.refl mentioned frame) (ih inner)

private theorem kept_assign {name : String} {value : Value} (known : name ∈ mentioned)
    (assigned : before.assign name value = .ok after) : KeptBehind mentioned depth before after :=
  .ofFrames (kept_assignAmong known (Run.assignAmong_frames before assigned))

end Scopes

namespace Run

variable {α β : Type} {mentioned : List String} {depth : Nat}

private theorem final_bind (run : Run α) (next : α → Run β) (state : State) :
    final (run >>= next) state = match run state with
      | .ok a after => final (next a) after
      | .error _ after => after := by
  unfold final
  rw [run_bind]
  cases run state <;> rfl

def Keeps (mentioned : List String) (depth : Nat) (run : Run α) : Prop :=
  ∀ state : State, Scopes.KeptBehind mentioned depth state.scopes (final run state).scopes

namespace Keeps

private theorem ofScopes {run : Run α} (same : ∀ state, (final run state).scopes = state.scopes) :
    Keeps mentioned depth run := by
  intro state
  rw [same]
  exact .refl mentioned depth state.scopes

theorem bind {run : Run α} {next : α → Run β} (first : Keeps mentioned depth run)
    (second : ∀ a, Keeps mentioned depth (next a)) : Keeps mentioned depth (run >>= next) := by
  intro state
  have begun := first state
  rw [final_bind]
  unfold final at begun
  cases ended : run state with
  | ok a after =>
    rw [ended] at begun
    exact begun.trans (second a after)
  | error halt after =>
    rw [ended] at begun
    exact begun

theorem inScope {run : Run α} (keeps : Keeps mentioned (depth + 1) run) :
    Keeps mentioned depth (Run.inScope run) := by
  intro state
  have inside := keeps state.enterScope
  have left : (final (Run.inScope run) state).scopes = (final run state.enterScope).scopes.leave := by
    unfold final Run.inScope
    cases run state.enterScope <;> rfl
  rw [left]
  exact inside.leave

end Keeps

theorem keeps_lookup (name : Token) : Keeps mentioned depth (lookup name) := by
  apply Keeps.ofScopes
  intro state
  unfold final lookup
  cases state.scopes.get? name.lexeme <;> rfl

theorem keeps_tryAssign {name : Token} (known : name.lexeme ∈ mentioned) (value : Value) :
    Keeps mentioned depth (tryAssign name value) := by
  intro state
  unfold final tryAssign
  cases assigned : state.scopes.assign name.lexeme value with
  | ok after => exact Scopes.kept_assign known assigned
  | error fault => exact .refl mentioned depth state.scopes

def keeping (mentioned : List String) (settings : Settings) : Congruence settings settings where
  rounds := rfl
  lines := 0
  named token := token.lexeme ∈ mentioned
  marked _ := True
  opened depth := 0 < depth
  opened_succ depth := Nat.succ_pos depth
  Relates depth _ run _ := Keeps mentioned depth run
  pure _ := .ofScopes fun _ => rfl
  raise _ := .ofScopes fun _ => rfl
  bind first second := .bind first second
  inScope keeps := .inScope keeps
  record entry := .ofScopes fun state => record_scopes settings entry state
  output _ := .ofScopes fun _ => rfl
  report _ _ := .ofScopes fun _ => rfl
  readLine := .ofScopes fun _ => rfl
  lookup _ := keeps_lookup _
  tryAssign value known := keeps_tryAssign known value
  define value opened _ state := Scopes.kept_define opened state.scopes _ value

end Run

namespace Node

private theorem not_declares : ∀ node : Node, node.isStatement → ¬node.isDeclaration → ¬node.declares
  | branch condition thenBranch elseBranch, proper, _ => by
    simp only [isStatement, Bool.and_eq_true, Bool.or_eq_true, Bool.not_eq_true'] at proper
    obtain ⟨⟨⟨_, properThen⟩, plainThen⟩, otherwise⟩ := proper
    have inThen := not_declares thenBranch properThen (by simpa using plainThen)
    have inElse : ¬elseBranch.declares := by
      rcases otherwise with absent | ⟨properElse, plainElse⟩
      · cases elseBranch with
        | absent => exact Bool.false_ne_true
        | _ => cases absent
      · exact not_declares elseBranch properElse (by simpa using plainElse)
    simp [declares, inThen, inElse]
  | loop condition body, proper, _ => by
    simp only [isStatement, Bool.and_eq_true, Bool.not_eq_true'] at proper
    obtain ⟨⟨_, properBody⟩, plainBody⟩ := proper
    exact not_declares body properBody (by simpa using plainBody)
  | declare _ _ _, _, plain => absurd rfl plain
  | absent, _, _ | list _, _, _ | literal _, _, _ | expression _, _, _ | output _, _, _ | block _, _, _
  | input _, _, _ | grouping _, _, _ | unary _ _, _, _ | binary _ _ _, _, _ | logical _ _ _, _, _
  | reference _, _, _ | assign _ _, _, _ => Bool.false_ne_true
termination_by structural node => node

private theorem declared_eq_nil {node : Node} (plain : ¬node.isDeclaration) : node.declared = [] := by
  cases node with
  | declare name initial dataType => exact absurd rfl plain
  | _ => rfl

end Node

namespace Run

variable {α β : Type} {added mentioned : List String} {settings : Settings}

def Adds (added mentioned : List String) (run : Run α) : Prop :=
  ∀ state : State,
    state.scopes.Later (if completes run state then added else []) mentioned (final run state).scopes

private theorem Keeps.adds {run : Run α} (keeps : Keeps mentioned 0 run) : Adds [] mentioned run := by
  intro state
  rw [ite_self]
  exact (keeps state).later

theorem Adds.after {run : Run α} {next : α → Run β} (first : Keeps mentioned 0 run)
    (second : ∀ a, Adds added mentioned (next a)) : Adds added mentioned (run >>= next) := by
  intro state
  have begun := (first state).later
  unfold final at begun
  unfold completes
  rw [final_bind, run_bind]
  cases ended : run state with
  | ok a after =>
    rw [ended] at begun
    exact begun.trans (second a after)
  | error halt after =>
    rw [ended] at begun
    exact begun

private theorem adds_declareAs {name : Token} (known : name.lexeme ∈ mentioned) (dataType : Option Token)
    (given : Option Value) : Adds [name.lexeme] mentioned (declareAs settings name dataType given) := by
  have valued : Keeps mentioned 0 (declarationValue name.lexeme dataType given) :=
    (keeping mentioned settings).declarationValue name.lexeme (fun _ _ => trivial) given
  refine .after valued fun value state => ?_
  show state.scopes.Later [name.lexeme] mentioned (State.record settings _ _).scopes
  rw [record_scopes]
  exact Scopes.later_define known state.scopes value

section Statements

variable (settings)

private theorem adds_declare (name : Token) (initial : Node) (dataType : Option Token) :
    Adds [name.lexeme] (Node.declare name initial dataType).mentioned
      (execute settings (.declare name initial dataType)) := by
  set mentioned := (Node.declare name initial dataType).mentioned with stated
  have known : name.lexeme ∈ mentioned := List.mem_map_of_mem (.head _)
  have named : ∀ token ∈ initial.names, token.lexeme ∈ mentioned := fun token member =>
    List.mem_map_of_mem (.tail _ member)
  let relation := keeping mentioned settings
  refine .after (relation.record (.execute _)) fun _ => ?_
  unfold declare
  split
  · exact adds_declareAs known dataType none
  · rw [bind_map_left]
    refine .after (relation.evaluateSame rfl ⟨named, fun _ _ => trivial⟩) fun value => ?_
    exact adds_declareAs known dataType (some value)

private theorem adds_execute {node : Node} (proper : node.isStatement) :
    Adds node.declared node.mentioned (execute settings node) := by
  by_cases plain : node.isDeclaration
  · cases node with
    | declare name initial dataType => exact adds_declare settings name initial dataType
    | _ => cases plain
  · rw [Node.declared_eq_nil plain]
    have covers : (keeping node.mentioned settings).Covers node :=
      ⟨fun token member => List.mem_map_of_mem member, fun _ _ => trivial⟩
    have keeps : Keeps node.mentioned 0 (execute settings node) :=
      (keeping node.mentioned settings).executeSame rfl 0 covers fun _ => node.not_declares proper plain
    exact keeps.adds

private theorem later_executeAll {nodes : List Node} (proper : Node.areStatements nodes) (state : State) :
    state.scopes.Later ((completed settings nodes state).flatMap Node.declared) (Node.mentionedAmong nodes)
      (final (executeAll settings nodes) state).scopes := by
  induction nodes generalizing state with
  | nil => exact .refl [] state.scopes
  | cons first rest ih =>
    obtain ⟨properFirst, properRest⟩ := Node.areStatements_iff.mp proper |> List.forall_mem_cons.mp
    have inFirst : first.mentioned ⊆ Node.mentionedAmong (first :: rest) :=
      List.map_subset _ (List.subset_append_left _ _)
    have inRest : Node.mentionedAmong rest ⊆ Node.mentionedAmong (first :: rest) :=
      List.map_subset _ (List.subset_append_right _ _)
    have begun := (adds_execute settings properFirst state).mono inFirst
    rw [executeAll, final_bind]
    unfold completed
    unfold completes final at begun ⊢
    cases ended : execute settings first state with
    | ok _ after =>
      rw [ended] at begun
      exact begun.trans ((ih (Node.areStatements_iff.mpr properRest) after).mono inRest)
    | error halt after =>
      rw [ended] at begun
      exact begun

private theorem conclude_scopes (nodes : List Node) (state : State) :
    (Session.conclude settings nodes state).2.scopes = (final (executeAll settings nodes) state).scopes := by
  unfold Session.conclude final
  cases executeAll settings nodes state with
  | ok _ after => rfl
  | error halt after => exact halted_scopes settings after halt

end Statements

private theorem globals_of_run (settings : Settings) {statements : List Node} (proper : Node.areStatements statements)
    (session : Session) (input : List String) (reported : List Diagnostic) (name : String) :
    (session.run settings input reported statements).2.globals.Has name ↔ session.globals.Has name ∨
      ∃ node ∈ completed settings statements (session.start input reported), name ∈ node.declared := by
  have later := later_executeAll settings proper (session.start input reported)
  rw [← conclude_scopes] at later
  have alone : (Session.conclude settings statements (session.start input reported)).2.scopes.outer = [] :=
    List.forall₂_nil_left_iff.mp later.outer
  have globals : (session.run settings input reported statements).2.globals =
      (Session.conclude settings statements (session.start input reported)).2.scopes.inner := by
    unfold Session.run Scopes.globals
    dsimp only
    rw [alone]
    rfl
  rw [globals, later.inner.names, List.mem_flatMap]
  rfl

/-- Statements keep to their scopes. Each that is read adds nothing to the scopes but the variable that it
declares in the innermost one, and that only if it comes to its end; variables that it does not mention
hold what they held. So the globals after a run are those before it, and those that the outermost
declarations declare that came to their end. -/
theorem scopes_of_run :
    (∀ source, Node.areStatements (Program.ofSource source).statements) ∧
    (∀ settings (node : Node), node.isStatement → ∀ state : State,
      state.scopes.Later (if completes (execute settings node) state then node.declared else [])
        node.mentioned (final (execute settings node) state).scopes) ∧
    ∀ settings statements, Node.areStatements statements →
      ∀ (session : Session) input reported (name : String),
        (session.run settings input reported statements).2.globals.Has name ↔ session.globals.Has name ∨
          ∃ node ∈ completed settings statements (session.start input reported), name ∈ node.declared := by
  refine ⟨fun source => Node.areStatements_iff.mpr fun node member => ?_,
    fun settings node proper => adds_execute settings proper, fun settings statements proper =>
      globals_of_run settings proper⟩
  apply (Program.proper_statements source node member).isStatement
  intro token proper carries
  obtain ⟨value, literal, _⟩ := proper carries
  exact Option.isSome_of_eq_some literal

def haltedInside : List Node :=
  (Program.ofSource "VAR a = 1 AS INT\nSTART\nVAR b AS INT\na = a / b\nSTOP\nVAR c AS INT\n").statements

theorem scopes_of_haltedInside : Node.areStatements haltedInside ∧
    let globals := (Session.empty.run ⟨0, 10⟩ [] [] haltedInside).2.globals
    globals.Has "a" ∧ ¬globals.Has "b" ∧ ¬globals.Has "c" := by
  have proper : Node.areStatements haltedInside := by decide +kernel
  have declared :
      (completed ⟨0, 10⟩ haltedInside (Session.empty.start [] [])).flatMap Node.declared = ["a"] := by
    decide +kernel
  have has (name : String) :
      (Session.empty.run ⟨0, 10⟩ [] [] haltedInside).2.globals.Has name ↔ name = "a" := by
    rw [scopes_of_run.2.2 ⟨0, 10⟩ haltedInside proper .empty [] [] name, ← List.mem_flatMap, declared,
      List.mem_singleton]
    exact or_iff_right Bool.false_ne_true
  refine ⟨proper, ?_⟩
  dsimp only
  simp [has]

end Run

end Cfpl
