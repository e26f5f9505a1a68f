import Cfpl.Program.Statement
import Cfpl.Run.Basic

/-! Sessions: what is left of a program when the next one runs are its global variables and what was
reported. -/

namespace Cfpl

inductive Outcome where
  | completed
  | stopped
  | misused (misuse : Misuse)
  | unfinished
  deriving DecidableEq

/-- What one run showed: how it ended, its events in order, and its trace. -/
structure Transcript where
  outcome : Outcome
  events : List Event
  trace : List TraceEntry

structure Session where
  globals : Frame
  journal : Journal

def Event.diagnostic? : Event → Option Diagnostic
  | report diagnostic => some diagnostic
  | _ => none

def Event.isInput : Event → Bool
  | input _ => true
  | _ => false

def linesRead (events : List Event) : Nat := events.countP Event.isInput

namespace Session

def empty : Session := ⟨.empty, .empty⟩

def start (session : Session) (input : List String) (reported : List Diagnostic) : Run.State :=
  { scopes := .single session.globals
    pending := input
    events := (reported.map Event.report).toArray
    trace := #[] }

/-- How a run ended that was halted. A fault of the program is reported, and nothing else is. -/
def halted (settings : Run.Settings) (state : Run.State) : Halt → Outcome × Run.State
  | .fault token fault => (.stopped, (state.record settings (.halt fault.message)).emit
    (.report (.stopping token fault.message)))
  | .misuse misuse => (.misused misuse, state)
  | .unfinished => (.unfinished, state)

def conclude (settings : Run.Settings) (statements : List Node) (state : Run.State) :
    Outcome × Run.State :=
  match Run.executeAll settings statements state with
  | .ok () state => (.completed, state)
  | .error halt state => halted settings state halt

def run (settings : Run.Settings) (input : List String) (reported : List Diagnostic)
    (statements : List Node) (session : Session) : Transcript × Session :=
  let (outcome, state) := conclude settings statements (session.start input reported)
  let events := state.events.toList
  ({ outcome := outcome, events := events, trace := state.trace.toList },
    { globals := state.scopes.globals
      journal := session.journal.addAll (events.filterMap Event.diagnostic?) })

/-- Runs what could be read of a program text, whatever was reported about it. -/
def runText (settings : Run.Settings) (input : List String) (source : String)
    (session : Session) : Transcript × Session :=
  let program := Program.ofSource source
  session.run settings input program.diagnostics program.statements

/-- Runs a program text in a session of its own, unless something was reported about it. -/
def runProgram (settings : Run.Settings) (input : List String) (source : String) :
    Transcript × Session :=
  let program := Program.ofSource source
  let statements := if program.diagnostics.isEmpty then program.statements else []
  empty.run settings input program.diagnostics statements

end Session

/-- A session after some runs, whatever was run in them, and all that they showed. -/
inductive Session.Shown : Session → List Event → Prop where
  | nothing : Shown .empty []
  | more {session : Session} {events : List Event} (settings : Run.Settings) (input : List String)
    (reported : List Diagnostic) (statements : List Node) (before : Shown session events) :
    Shown (session.run settings input reported statements).2
      (events ++ (session.run settings input reported statements).1.events)

end Cfpl
