import Cfpl.Node
import Cfpl.Scope.Chain
import Cfpl.Token
import Cfpl.Value.Field

/-! The state of a running program and the steps that change it. What a program does to the outside is
a list of events; what it does inside can be followed in a trace, in three degrees of detail. -/

namespace Cfpl

inductive Event where
  | output (text : String)
  | input (line : Option String)
  | report (diagnostic : Diagnostic)
  deriving DecidableEq

def Event.shift (lines : Int) : Event → Event
  | report diagnostic => report (diagnostic.shift lines)
  | event => event

inductive TraceEntry where
  | execute (label : String)
  | halt (message : String)
  | define (name : String) (value : Value)
  | assign (name : String) (value : Value)
  | input (name : String) (value : Value)
  | branch (value : Value)
  | loop (value : Value)

namespace TraceEntry

def level : TraceEntry → Nat
  | execute _ | halt _ => 1
  | define _ _ | assign _ _ | input _ _ => 2
  | branch _ | loop _ => 3

def text : TraceEntry → String
  | execute label => "execute " ++ label
  | halt message => "halt: " ++ message
  | define name value => "define " ++ name ++ " = " ++ value.described
  | assign name value => "assign " ++ name ++ " = " ++ value.described
  | input name value => "input " ++ name ++ " = " ++ value.described
  | branch value =>
    "if condition " ++ value.described ++ " -> " ++ (if value.holds then "True" else "False")
  | loop value => "while condition " ++ value.described

end TraceEntry

namespace Run

structure Settings where
  /-- How much detail the trace shows; nothing at level zero. -/
  detail : Nat
  /-- How often each execution of a loop may go round. -/
  rounds : Nat

structure State where
  scopes : Scopes
  pending : List String
  events : Array Event
  trace : Array TraceEntry

namespace State

def emit (event : Event) (state : State) : State :=
  { state with events := state.events.push event }

def record (settings : Settings) (entry : TraceEntry) (state : State) : State :=
  if entry.level ≤ settings.detail then { state with trace := state.trace.push entry } else state

def leaveScope (state : State) : State := { state with scopes := state.scopes.leave }

def enterScope (state : State) : State := { state with scopes := state.scopes.enter }

end State

end Run

/-- A step of a program. The state is kept when the step halts the program. -/
abbrev Run := EStateM Halt Run.State

namespace Run

variable {α : Type}

def emit (event : Event) : Run Unit := fun state => .ok () (state.emit event)

def report (diagnostic : Diagnostic) : Run Unit := emit (.report diagnostic)

def record (settings : Settings) (entry : TraceEntry) : Run Unit := fun state =>
  .ok () (state.record settings entry)

def misuse (misuse : Misuse) : Run α := throw (.misuse misuse)

def readLine : Run (Option String) := fun state =>
  let line := state.pending.head?
  .ok line ({ state with pending := state.pending.drop 1 }.emit (.input line))

def lookup (name : Token) : Run Value := fun state =>
  match state.scopes.get? name.lexeme with
  | some value => .ok value state
  | none => .error (.fault name (.undefinedVariable name.lexeme)) state

def define (name : String) (value : Value) : Run Unit := fun state =>
  .ok () { state with scopes := state.scopes.define name value }

def tryAssign (name : Token) (value : Value) : Run (Option Fault) := fun state =>
  match state.scopes.assign name.lexeme value with
  | .ok scopes => .ok none { state with scopes := scopes }
  | .error fault => .ok (some fault) state

def assign (name : Token) (value : Value) : Run Unit := do
  match ← tryAssign name value with
  | none => return ()
  | some fault => throw (.fault name fault)

def ofExcept : Except Halt α → Run α
  | .ok a => return a
  | .error halt => throw halt

/-- A step inside a scope of its own, which is left again also when the step halts. -/
def inScope (step : Run α) : Run α := fun state =>
  match step state.enterScope with
  | .ok a state => .ok a state.leaveScope
  | .error halt state => .error halt state.leaveScope

/-- A step for as long as a test holds, but not more often than a number of rounds. -/
def whileHolds (test : Run Bool) (step : Run Unit) : (rounds : Nat) → Run Unit
  | 0 => throw .unfinished
  | rounds + 1 => do
    if ← test then
      step
      whileHolds test step rounds

end Run

end Cfpl
