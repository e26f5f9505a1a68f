import Cfpl.Command.Options
import Cfpl.Document.Program
import Cfpl.Json.Reader
import Cfpl.Session
import Cfpl.Text

/-! What the command answers: the two streams it writes, the file it writes, and how it ends. Steps of a path that lead
nowhere are left out of it; steps upward are kept, because where they lead depends on the directories that are
there. -/

namespace Cfpl.Command

structure Path where
  /-- The slashes at the beginning of a path that does not start in the working directory. -/
  root : String
  steps : List String
  deriving DecidableEq, Repr

namespace Path

def ofText (text : String) : Path :=
  let parts := (Text.split '/' text.toList).map String.ofList
  let slashes := (text.toList.takeWhile (· == '/')).length
  { root := if slashes = 0 then "" else if slashes = 2 then "//" else "/"
    steps := parts.filter fun part => part != "" && part != "." }

def text (path : Path) : String :=
  if path.root = "" && path.steps.isEmpty then "."
  else path.root ++ "/".intercalate path.steps

def extended (path : Path) (ending : String) : Path :=
  match path.steps.getLast? with
  | some last => { path with steps := path.steps.dropLast ++ [last ++ ending] }
  | none => path

end Path

inductive Lookup where
  | missing
  | directory
  | file (bytes : ByteArray)

/-- What the command finds around it: what the path of its task leads to, and whether directories stand
in the places of the files that it would write. -/
structure Surroundings where
  source : Lookup
  traceBlocked : Bool
  documentBlocked : Bool

inductive Failure where
  | directory
  | notText
  | notJson
  | document (flaw : Document.Flaw)
  | misuse (misuse : Misuse)
  | unfinished
  deriving DecidableEq

inductive Ending where
  | status (code : Nat)
  | failed (failure : Failure)
  deriving DecidableEq

inductive Written where
  | trace (text : String)
  | document (text : String)

structure Reply where
  ending : Ending
  output : String
  errors : String
  written : Option Written

namespace Status

def success : Nat := 0

def missingFile : Nat := 1

def usage : Nat := 2

def brokenProgram : Nat := 65

def stopped : Nat := 70

end Status

def documentEnding : String := ".ast.json"

def traceName : String := "debug.txt"

namespace Reply

def ended (code : Nat) (output errors : String) : Reply := ⟨.status code, output, errors, none⟩

def failed (failure : Failure) : Reply := ⟨.failed failure, "", "", none⟩

end Reply

def errorLines (diagnostics : List Diagnostic) : String :=
  .join (diagnostics.map fun diagnostic => diagnostic.text ++ "\n")

def outputLine : Event → String
  | .output text => text ++ "\n"
  | _ => ""

def traceText (trace : List TraceEntry) : String :=
  .join (trace.map fun entry => entry.text ++ "\n")

def ending : Outcome → Ending
  | .completed => .status Status.success
  | .stopped => .status Status.stopped
  | .misused misuse => .failed (.misuse misuse)
  | .unfinished => .failed .unfinished

def inputLines (input : String) : List String :=
  (Text.lines (Text.unifyLineEnds input.toList)).map String.ofList

def runReply (settings : Run.Settings) (surroundings : Surroundings) (input : String)
    (statements : List Node) : Reply :=
  if surroundings.traceBlocked && settings.detail != 0 && !statements.isEmpty then
    .failed .directory
  else
    let (transcript, _) := Session.empty.run settings (inputLines input) [] statements
    { ending := ending transcript.outcome
      output := .join (transcript.events.map outputLine)
      errors := errorLines (transcript.events.filterMap Event.diagnostic?)
      written := if transcript.trace.isEmpty then none
        else some (.trace (traceText transcript.trace)) }

def emitReply (surroundings : Surroundings) (path : Path) (statements : List Node) : Reply :=
  if surroundings.documentBlocked then .failed .directory
  else match Document.ofStatements? statements with
    | some document =>
      { ending := .status Status.success
        output := (path.extended documentEnding).text ++ "\n"
        errors := ""
        written := some (.document document.indented) }
    | none => .failed (.misuse .missingLiteral)

def sourceText (path : Path) : Lookup → Except Reply String
  | .missing =>
    .error (.ended Status.missingFile "" ("Error: file " ++ path.text ++ " not found\n"))
  | .directory => .error (.failed .directory)
  | .file bytes => match String.fromUTF8? bytes with
    | some text => .ok (.ofList (Text.unifyLineEnds text.toList))
    | none => .error (.failed .notText)

def programStatements (text : String) : Except Reply (List Node) :=
  let program := Program.ofSource text
  if program.diagnostics.isEmpty then .ok program.statements
  else .error (.ended Status.brokenProgram "" (errorLines program.diagnostics))

def documentStatements (text : String) : Except Reply (List Node) :=
  match Json.read text with
  | .error .malformed => .error (.failed .notJson)
  | .error (.tooManyDigits count) => .error (.failed (.document (.notNumber (.tooManyDigits count))))
  | .ok json => match Document.statements json with
    | .ok statements => .ok statements
    | .error flaw => .error (.failed (.document flaw))

def taskStatements (task : Task) (source : Lookup) : Except Reply (List Node) := do
  let text ← sourceText (.ofText task.path) source
  match task with
  | .emit _ | .runProgram _ => programStatements text
  | .runDocument _ => documentStatements text

def Task.readsInput (task : Task) (source : Lookup) : Bool :=
  match task, taskStatements task source with
  | .emit _, _ => false
  | _, .ok statements => Node.anyAsksForInput statements
  | _, .error _ => false

def taskReply (rounds verbosity : Nat) (surroundings : Surroundings) (input : String)
    (task : Task) : Reply :=
  match task, taskStatements task surroundings.source with
  | _, .error reply => reply
  | .emit path, .ok statements => emitReply surroundings (.ofText path) statements
  | _, .ok statements => runReply ⟨verbosity, rounds⟩ surroundings input statements

def usageLine : String :=
  "usage: cfpl [-h] [-v] [--emit-ast CFPL_FILE | --ast AST_JSON_FILE] [program]\n"

def helpText : String := usageLine ++ "\n" ++ .join ([
  "CFPL language interpreter",
  "",
  "positional arguments:",
  "  program               CFPL program file (.cfpl) to execute",
  "",
  "options:",
  "  -h, --help            show this help message and exit",
  "  -v                    increase debug verbosity (can be repeated)",
  "  --emit-ast CFPL_FILE  emit AST JSON for the given .cfpl file",
  "  --ast AST_JSON_FILE   execute AST from a JSON file"].map (· ++ "\n"))

def refusalReply : Refusal → Reply
  | .help => .ended Status.success helpText ""
  | .usage error =>
    .ended Status.usage "" (usageLine ++ "cfpl: error: " ++ error.message ++ "\n")

def read (arguments : List String) : Except Refusal (Nat × Task) := do
  let options ← Options.read arguments
  let task ← options.task
  return (options.verbosity, task)

end Cfpl.Command
