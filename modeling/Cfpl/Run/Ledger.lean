import Cfpl.Run.Machine
import Cfpl.Session
import Mathlib.Logic.Relation

/-! Sequences of programs in one session, step by step, with a ledger of the declarations in effect. The
ledger is kept beside the run and has no influence on it. -/

namespace Cfpl.Run

/-- A declaration that was carried out: how many there were before it, its type, and the kind of the value
it was given, if any. -/
structure Declaration where
  number : Nat
  dataType : Symbol
  given : Option Kind
  deriving DecidableEq

abbrev Log := List (String × Declaration)

/-- The logs of the scopes in effect, from the innermost outward, and the number of all declarations. -/
structure Ledger where
  inner : Log
  outer : List Log
  count : Nat

namespace Ledger

def empty : Ledger := ⟨[], [], 0⟩

def logs (ledger : Ledger) : List Log := ledger.inner :: ledger.outer

def enter (ledger : Ledger) : Ledger := ⟨[], ledger.logs, ledger.count⟩

def leave (ledger : Ledger) : Ledger :=
  match ledger.outer with
  | [] => ledger
  | log :: outer => ⟨log, outer, ledger.count⟩

def globals (ledger : Ledger) : Ledger := ⟨ledger.outer.getLast?.getD ledger.inner, [], ledger.count⟩

def declare (ledger : Ledger) (name : String) (dataType : Symbol) (given : Option Kind) : Ledger :=
  ⟨(name, ⟨ledger.count, dataType, given⟩) :: ledger.inner, ledger.outer, ledger.count + 1⟩

def after (ledger : Ledger) : Config → Ledger
  | ⟨.execute (.block _), _, _⟩ => ledger.enter
  | ⟨.execute (.declare name initial (some dataType)), _, _⟩ =>
    if initial.isAbsent then ledger.declare name.lexeme dataType.symbol none else ledger
  | ⟨.value value [] (.declare name (some dataType)), _, _⟩ =>
    ledger.declare name.lexeme dataType.symbol (some value.kind)
  | ⟨.done, .leave :: _, _⟩ | ⟨.raised _, .leave :: _, _⟩ => ledger.leave
  | _ => ledger

end Ledger

namespace Config

def ofSource (globals : Frame) (input : List String) (source : String) : Config :=
  let program := Program.ofSource source
  ⟨.done, [.rest program.statements], Session.start ⟨globals, .empty⟩ input program.diagnostics⟩

def Ended (config : Config) : Prop :=
  config.tasks = [] ∧ (config.control = .done ∨ ∃ halt, config.control = .raised halt)

end Config

/-- A step of a program, or the start of the next one where a program has ended. -/
inductive Turn : Config × Ledger → Config × Ledger → Prop where
  | step (settings : Settings) {config later : Config} (ledger : Ledger) :
    config.next settings = some later → Turn (config, ledger) (later, ledger.after config)
  | program (input : List String) (source : String) {config : Config} (ledger : Ledger) :
    config.Ended →
    Turn (config, ledger) (.ofSource config.state.scopes.globals input source, ledger.globals)

abbrev Turns : Config × Ledger → Config × Ledger → Prop := Relation.ReflTransGen Turn

/-- Some programs, one after another in a new session, come to this place. -/
def Reached (config : Config) (ledger : Ledger) : Prop :=
  ∃ input source, Turns (.ofSource .empty input source, .empty) (config, ledger)

end Cfpl.Run
