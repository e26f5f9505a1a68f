import Cfpl.Proofs.Run.Congruence
import Cfpl.Session

/-! Two runs that stay alike. What a program reads of its state, and what it does to it, goes through a few
actions; a likeness of states that these actions keep is kept by every run. The second run may be of a
program that stands a number of lines further down, and traced in another degree of detail. -/

namespace Cfpl.Run

inductive Assigned (alike : Scopes → Scopes → Prop) :
    Except Fault Scopes → Except Fault Scopes → Prop where
  | ok {first second : Scopes} : alike first second → Assigned alike (.ok first) (.ok second)
  | error (fault : Fault) : Assigned alike (.error fault) (.error fault)

/-- A relation between the states of two runs that the actions of a program keep. -/
structure Likeness where
  /-- How much further down the second program stands. -/
  lines : Int
  /-- The depths at which the innermost scopes may be declared in. -/
  opened : Nat → Prop
  opened_succ (depth : Nat) : opened (depth + 1)
  scopes : Nat → Scopes → Scopes → Prop
  console : List String → Array Event → List String → Array Event → Prop
  get? {depth : Nat} {first second : Scopes} :
    scopes depth first second → ∀ name, first.get? name = second.get? name
  assigned {depth : Nat} {first second : Scopes} : scopes depth first second → ∀ name value,
    Assigned (scopes depth) (first.assign name value) (second.assign name value)
  defined {depth : Nat} {first second : Scopes} : opened depth → scopes depth first second →
    ∀ name value, scopes depth (first.define name value) (second.define name value)
  entered {depth : Nat} {first second : Scopes} :
    scopes depth first second → scopes (depth + 1) first.enter second.enter
  left {depth : Nat} {first second : Scopes} :
    scopes (depth + 1) first second → scopes depth first.leave second.leave
  shown {pending others : List String} {events since : Array Event} :
    console pending events others since → ∀ text,
      console pending (events.push (.output text)) others (since.push (.output text))
  reported {pending others : List String} {events since : Array Event} :
    console pending events others since → ∀ diagnostic, console pending
      (events.push (.report diagnostic)) others (since.push (.report (diagnostic.shift lines)))
  read {pending others : List String} {events since : Array Event} :
    console pending events others since → pending.head? = others.head? ∧
      console (pending.drop 1) (events.push (.input pending.head?))
        (others.drop 1) (since.push (.input others.head?))

namespace Likeness

variable (likeness : Likeness) {α β : Type}

structure States (depth : Nat) (first second : State) : Prop where
  scopes : likeness.scopes depth first.scopes second.scopes
  console : likeness.console first.pending first.events second.pending second.events

inductive Ends (depth : Nat) :
    EStateM.Result Halt State α → EStateM.Result Halt State α → Prop where
  | ok (a : α) {first second : State} : likeness.States depth first second →
    Ends depth (.ok a first) (.ok a second)
  | error (halt : Halt) {first second : State} : likeness.States depth first second →
    Ends depth (.error halt first) (.error (halt.shift likeness.lines) second)

def Keeps (depth : Nat) (run other : Run α) : Prop :=
  ∀ first second, likeness.States depth first second → likeness.Ends depth (run first) (other second)

variable {likeness} {depth : Nat}

namespace States

variable {first second : State}

theorem record (alike : likeness.States depth first second) (settings : Settings) (entry : TraceEntry) :
    likeness.States depth (first.record settings entry) second := by
  unfold State.record
  split
  · exact ⟨alike.scopes, alike.console⟩
  · exact alike

theorem recordOther (alike : likeness.States depth first second) (settings : Settings)
    (entry : TraceEntry) : likeness.States depth first (second.record settings entry) := by
  unfold State.record
  split
  · exact ⟨alike.scopes, alike.console⟩
  · exact alike

end States

namespace Keeps

theorem pure (a : α) : likeness.Keeps depth (Pure.pure a) (Pure.pure a) :=
  fun _ _ alike => .ok a alike

theorem raise (halt : Halt) :
    likeness.Keeps depth (throw halt : Run α) (throw (halt.shift likeness.lines)) :=
  fun _ _ alike => .error halt alike

theorem bind {run other : Run α} {next later : α → Run β} (first : likeness.Keeps depth run other)
    (second : ∀ a, likeness.Keeps depth (next a) (later a)) :
    likeness.Keeps depth (run >>= next) (other >>= later) := by
  intro state otherState alike
  have begun := first state otherState alike
  rw [run_bind, run_bind]
  generalize run state = result at begun ⊢
  generalize other otherState = otherResult at begun ⊢
  cases begun with
  | ok a alike => exact second a _ _ alike
  | error halt alike => exact .error halt alike

theorem record {settings : Settings} {entry : TraceEntry} {run other : Run α}
    (keeps : likeness.Keeps depth run other) :
    likeness.Keeps depth (do Run.record settings entry; run) other := by
  intro state otherState alike
  exact keeps _ otherState (alike.record settings entry)

theorem recordOther {settings : Settings} {entry : TraceEntry} {run other : Run α}
    (keeps : likeness.Keeps depth run other) :
    likeness.Keeps depth run (do Run.record settings entry; other) := by
  intro state otherState alike
  exact keeps state _ (alike.recordOther settings entry)

theorem inScope {run other : Run α} (keeps : likeness.Keeps (depth + 1) run other) :
    likeness.Keeps depth (Run.inScope run) (Run.inScope other) := by
  intro state otherState alike
  have inside := keeps state.enterScope otherState.enterScope
    ⟨likeness.entered alike.scopes, alike.console⟩
  unfold Run.inScope
  generalize run state.enterScope = result at inside ⊢
  generalize other otherState.enterScope = otherResult at inside ⊢
  cases inside with
  | ok a alike => exact .ok a ⟨likeness.left alike.scopes, alike.console⟩
  | error halt alike => exact .error halt ⟨likeness.left alike.scopes, alike.console⟩

end Keeps

section Actions

private theorem keeps_report (diagnostic : Diagnostic) :
    likeness.Keeps depth (report diagnostic) (report (diagnostic.shift likeness.lines)) :=
  fun _ _ alike => .ok () ⟨alike.scopes, likeness.reported alike.console diagnostic⟩

private theorem keeps_output (text : String) :
    likeness.Keeps depth (emit (.output text)) (emit (.output text)) :=
  fun _ _ alike => .ok () ⟨alike.scopes, likeness.shown alike.console text⟩

private theorem keeps_readLine : likeness.Keeps depth readLine readLine := by
  intro first second alike
  obtain ⟨same, read⟩ := likeness.read alike.console
  have ended : likeness.Ends depth (readLine first) (.ok first.pending.head?
      ({ second with pending := second.pending.drop 1 }.emit (.input second.pending.head?))) :=
    .ok _ ⟨alike.scopes, read⟩
  rwa [same] at ended

theorem keeps_lookup (name : Token) :
    likeness.Keeps depth (lookup name) (lookup (name.shift likeness.lines)) := by
  intro first second alike
  have same := likeness.get? alike.scopes name.lexeme
  unfold lookup
  rw [show (name.shift likeness.lines).lexeme = name.lexeme from rfl, ← same]
  cases first.scopes.get? name.lexeme with
  | some value => exact .ok value alike
  | none => exact .error (.fault name (.undefinedVariable name.lexeme)) alike

theorem keeps_tryAssign (name : Token) (value : Value) :
    likeness.Keeps depth (tryAssign name value) (tryAssign (name.shift likeness.lines) value) := by
  intro first second alike
  have assigned := likeness.assigned alike.scopes name.lexeme value
  unfold tryAssign
  rw [show (name.shift likeness.lines).lexeme = name.lexeme from rfl]
  generalize first.scopes.assign name.lexeme value = result at assigned ⊢
  generalize second.scopes.assign name.lexeme value = otherResult at assigned ⊢
  cases assigned with
  | ok related => exact .ok none ⟨related, alike.console⟩
  | error fault => exact .ok (some fault) alike

private theorem keeps_define (opened : likeness.opened depth) (name : String) (value : Value) :
    likeness.Keeps depth (define name value) (define name value) :=
  fun _ _ alike => .ok () ⟨likeness.defined opened alike.scopes name value, alike.console⟩

end Actions

section Nodes

variable {settings other : Settings}

private theorem keeps_record (entry otherEntry : TraceEntry) :
    likeness.Keeps depth (record settings entry) (record other otherEntry) :=
  fun _ _ alike => .ok () ((alike.record settings entry).recordOther other otherEntry)

def congruence (likeness : Likeness) (rounds : settings.rounds = other.rounds) :
    Congruence settings other where
  rounds := rounds
  lines := likeness.lines
  named _ := True
  marked _ := True
  opened := likeness.opened
  opened_succ := likeness.opened_succ
  Relates depth _ run otherRun := likeness.Keeps depth run otherRun
  pure a := .pure a
  raise _ := .raise _
  bind first second := .bind first second
  inScope keeps := .inScope keeps
  record entry := keeps_record entry entry
  output text := keeps_output text
  report _ _ := keeps_report _
  readLine := keeps_readLine
  lookup _ := keeps_lookup _
  tryAssign value _ := keeps_tryAssign _ value
  define value opened _ := keeps_define opened _ value

private theorem keeps_executeAll (rounds : settings.rounds = other.rounds) (nodes : List Node) (depth : Nat)
    (inner : ¬likeness.opened depth → ∀ node ∈ nodes, ¬node.declares) :
    likeness.Keeps depth (executeAll settings nodes)
      (executeAll other (Node.shiftAll likeness.lines nodes)) :=
  (likeness.congruence rounds).executeAll nodes depth ⟨fun _ _ => trivial, fun _ _ => trivial⟩ inner

end Nodes

section Programs

variable {settings other : Settings} {first second : State}

private theorem halted_alike (alike : likeness.States depth first second) (halt : Halt) :
    (Session.halted settings first halt).1 = (Session.halted other second (halt.shift likeness.lines)).1 ∧
      likeness.States depth (Session.halted settings first halt).2
        (Session.halted other second (halt.shift likeness.lines)).2 := by
  cases halt with
  | fault token fault =>
    have traced := (alike.record settings (.halt fault.message)).recordOther other (.halt fault.message)
    exact ⟨rfl, traced.scopes, likeness.reported traced.console (.stopping token fault.message)⟩
  | misuse misuse => exact ⟨rfl, alike⟩
  | unfinished => exact ⟨rfl, alike⟩

theorem conclude_alike (rounds : settings.rounds = other.rounds) (opened : likeness.opened depth)
    (alike : likeness.States depth first second) (statements : List Node) :
    (Session.conclude settings statements first).1 =
        (Session.conclude other (Node.shiftAll likeness.lines statements) second).1 ∧
      likeness.States depth (Session.conclude settings statements first).2
        (Session.conclude other (Node.shiftAll likeness.lines statements) second).2 := by
  have keeps : likeness.Keeps depth (executeAll settings statements)
      (executeAll other (Node.shiftAll likeness.lines statements)) :=
    keeps_executeAll rounds statements depth fun closed => absurd opened closed
  have ended := keeps first second alike
  unfold Session.conclude
  generalize executeAll settings statements first = result at ended ⊢
  generalize executeAll other (Node.shiftAll likeness.lines statements) second = otherResult at ended ⊢
  cases ended with
  | ok _ alike => exact ⟨rfl, alike⟩
  | error halt alike => exact halted_alike alike halt

end Programs

end Likeness

end Cfpl.Run
