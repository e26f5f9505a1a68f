import Cfpl.Proofs.Command.Files
import Cfpl.Proofs.Document.RoundTrip
import Cfpl.Proofs.Document.Written
import Cfpl.Proofs.Json.Printed
import Cfpl.Proofs.Run.Safety

/-! The ways of running a program: from its text, or from the document that was written of it. -/

namespace Cfpl

namespace Command

/-- The reply to a run that showed this. -/
def shown (transcript : Transcript) : Reply where
  ending := ending transcript.outcome
  output := .join (transcript.events.map outputLine)
  errors := errorLines (transcript.events.filterMap Event.diagnostic?)
  written := if transcript.trace.isEmpty then none else some (.trace (traceText transcript.trace))

/-- What a task executes: the transcript of the statements, and none if it executes nothing. -/
def transcript? (rounds verbosity : Nat) (surroundings : Surroundings) (input : String) (task : Task) :
    Option Transcript :=
  match task, taskStatements task surroundings.source with
  | .emit _, _ | _, .error _ => none
  | _, .ok statements =>
    if surroundings.traceBlocked && verbosity != 0 && !statements.isEmpty then none
    else some (Session.empty.run ⟨verbosity, rounds⟩ (inputLines input) [] statements).1

/-- Where a text is read from a file, its lines end with line feeds. -/
def textRead (text : String) : String := .ofList (Text.unifyLineEnds text.toList)

private theorem sourceText_file (path : Path) (text : String) :
    sourceText path (.file text.toUTF8) = .ok (textRead text) := by
  have valid : String.fromUTF8? text.toUTF8 = some text := dif_pos text.isValidUTF8
  simp only [sourceText, valid]
  rfl

private theorem taskStatements_text {task : Task} {text : String} (asText : ∀ path, task ≠ .runDocument path) :
    taskStatements task (.file text.toUTF8) = programStatements (textRead text) := by
  unfold taskStatements
  rw [sourceText_file]
  cases task with
  | runDocument path => exact absurd rfl (asText path)
  | emit path | runProgram path => rfl

private theorem textRead_indented (document : Json) : textRead document.indented = document.indented := by
  rw [textRead, Json.unifyLineEnds_indented, String.ofList_toList]

private theorem taskStatements_document {source : String} {document : Json}
    (written : Document.ofStatements? (Program.ofSource source).statements = some document)
    (returns : Json.parse? document.indented = some document) (path : String) :
    taskStatements (.runDocument path) (.file document.indented.toUTF8) =
      .ok (Program.ofSource source).statements := by
  unfold taskStatements
  rw [sourceText_file, textRead_indented]
  show documentStatements document.indented = _
  unfold documentStatements
  rw [Json.read_of_parse? returns]
  dsimp only
  rw [Document.statements_of_ofStatements? written]

private theorem shown_status {transcript : Transcript} (expected : transcript.outcome.Expected) :
    ((shown transcript).ending = .status 70 ↔ transcript.outcome = .stopped) ∧
      ((shown transcript).ending = .status 0 ↔ transcript.outcome = .completed) ∧
      (shown transcript).ending ≠ .status 65 := by
  unfold shown
  dsimp only
  generalize transcript.outcome = outcome at expected ⊢
  cases outcome with
  | completed | stopped | unfinished => decide
  | misused misuse => simp [Outcome.Expected] at expected

section Texts

variable {source : String}

private theorem programStatements_of_quiet (quiet : (Program.ofSource source).diagnostics = []) :
    programStatements source = .ok (Program.ofSource source).statements := by
  unfold programStatements
  dsimp only
  rw [quiet]
  rfl

private theorem programStatements_of_reported (reported : (Program.ofSource source).diagnostics ≠ []) :
    programStatements source = .error (.ended 65 "" (errorLines (Program.ofSource source).diagnostics)) := by
  unfold programStatements
  dsimp only
  rw [if_neg (by simpa using reported)]
  rfl

private theorem expected_of_quiet (quiet : (Program.ofSource source).diagnostics = []) (settings : Run.Settings)
    (input : List String) :
    (Session.empty.run settings input [] (Program.ofSource source).statements).1.outcome.Expected := by
  have ends := Session.expected_runText .empty settings input source
  unfold Session.runText at ends
  dsimp only at ends
  rwa [quiet] at ends

end Texts

namespace FileStore

/-- What a command executes among the files of a store. -/
def transcript? (store : FileStore) (rounds : Nat) (arguments : List String) (input : String) :
    Option Transcript :=
  match Command.read arguments with
  | .error _ => none
  | .ok (verbosity, task) =>
    Command.transcript? rounds verbosity (store.surroundings (.ofText task.path)) input task

section Served

variable (store : FileStore) {arguments : List String} {verbosity : Nat} {task : Task}
  (asked : Command.read arguments = .ok (verbosity, task)) (rounds : Nat) (input : String)
include asked

private theorem serve_of_read :
    let path := Path.ofText task.path
    let reply := taskReply rounds verbosity (store.surroundings path) input task
    store.serve rounds arguments input = (reply, store.keep path reply.written) ∧
      store.transcript? rounds arguments input =
        Command.transcript? rounds verbosity (store.surroundings path) input task := by
  simp only [serve, transcript?, asked]
  trivial

private theorem serve_of_statements (executes : ∀ path, task ≠ .emit path) {statements : List Node}
    (read : taskStatements task (store.lookup (.ofText task.path)) = .ok statements)
    (untraced : verbosity = 0 ∨ store.isDirectory [traceName] = false) :
    let transcript := (Session.empty.run ⟨verbosity, rounds⟩ (inputLines input) [] statements).1
    store.transcript? rounds arguments input = some transcript ∧
      (store.serve rounds arguments input).1 = shown transcript := by
  obtain ⟨served, executed⟩ := store.serve_of_read asked rounds input
  rw [served, executed]
  have begun : ¬(store.isDirectory [traceName] && verbosity != 0 && !statements.isEmpty) := by
    rcases untraced with rfl | free
    · simp
    · simp [free]
  cases task with
  | emit path => exact absurd rfl (executes path)
  | runDocument path | runProgram path =>
    simp only [Command.transcript?, taskReply, runReply, surroundings, read]
    exact ⟨if_neg begun, if_neg begun⟩

private theorem serve_of_refused {reply : Reply}
    (refused : taskStatements task (store.lookup (.ofText task.path)) = .error reply)
    (unwritten : reply.written = none) :
    store.serve rounds arguments input = (reply, store) ∧ store.transcript? rounds arguments input = none ∧
      task.readsInput (store.lookup (.ofText task.path)) = false := by
  obtain ⟨served, executed⟩ := store.serve_of_read asked rounds input
  have replied : taskReply rounds verbosity (store.surroundings (.ofText task.path)) input task = reply := by
    cases task <;> simp only [taskReply, surroundings, refused]
  rw [served, executed, replied, unwritten]
  refine ⟨rfl, ?_⟩
  cases task <;> simp only [Command.transcript?, Task.readsInput, surroundings, refused] <;> trivial

end Served

private theorem serve_of_emission (store : FileStore) {arguments : List String} {verbosity : Nat} {path : String}
    (asked : Command.read arguments = .ok (verbosity, .emit path)) {statements : List Node}
    (read : taskStatements (.emit path) (store.lookup (.ofText path)) = .ok statements)
    (free : store.isDirectory (store.documentSteps (.ofText path)) = false) {document : Json}
    (written : Document.ofStatements? statements = some document) (rounds : Nat) (input : String) :
    (store.serve rounds arguments input).1.ending = .status 0 ∧
      (store.serve rounds arguments input).2 =
        store.keep (.ofText path) (some (.document document.indented)) := by
  have replied : taskReply rounds verbosity (store.surroundings (.ofText path)) input (.emit path) =
      ⟨.status 0, ((Path.ofText path).extended documentEnding).text ++ "\n", "",
        some (.document document.indented)⟩ := by
    simp only [taskReply, emitReply, surroundings, read, written, if_neg (ne_true_of_eq_false free)]
    rfl
  rw [(store.serve_of_read asked rounds input).1]
  dsimp only [Task.path]
  rw [replied]
  exact ⟨rfl, rfl⟩

end FileStore

def dividingText : String := "VAR a AS INT\nVAR b AS INT\nINPUT: a, b\nOUTPUT: a * 1.5\nOUTPUT: a / b\n"

def dividing : FileStore := ⟨[("divide.cfpl", dividingText.toUTF8)]⟩

end Command

end Cfpl
