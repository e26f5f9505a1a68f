import Cfpl.Command.Reply

/-! The command itself: it looks up what the arguments name, lets the reply be computed, and carries the
reply out. -/

namespace Cfpl.Command

def endlessRounds : Nat := 1 <<< 62

def isDirectory (path : String) : IO Bool := do
  try (← IO.FS.realPath path).isDir
  catch _ => return false

def lookup (path : String) : IO Lookup := do
  if ← isDirectory path then return .directory
  try return .file (← IO.FS.readBinFile path)
  catch _ => return .missing

def inputText : IO String := do
  let bytes ← (← IO.getStdin).readBinToEnd
  return (String.fromUTF8? bytes).getD ""

def describe : Failure → String
  | .directory => "a directory stands where a file is needed"
  | .notText => "the file is not a text in UTF-8"
  | .notJson => "the file is not a JSON document"
  | .document flaw => "the document is not a program" ++
    (flaw.detail?.map (": " ++ ·)).getD ""
  | .misuse _ => "the document holds a node where it cannot stand"
  | .unfinished => "a loop does not end"

def carryOut (documentPath : String) (reply : Reply) : IO UInt32 := do
  match reply.written with
  | some (.trace text) => IO.FS.writeFile traceName text
  | some (.document text) => IO.FS.writeFile documentPath text
  | none => pure ()
  IO.print reply.output
  IO.eprint reply.errors
  match reply.ending with
  | .status code => return code.toUInt32
  | .failed failure =>
    IO.eprintln ("Error: " ++ describe failure)
    return Status.missingFile.toUInt32

def execute (arguments : List String) : IO UInt32 := do
  match read arguments with
  | .error refusal => carryOut "" (refusalReply refusal)
  | .ok (verbosity, task) =>
    let path := Path.ofText task.path
    let documentPath := (path.extended documentEnding).text
    let source ← lookup path.text
    let surroundings := ⟨source, ← isDirectory traceName, ← isDirectory documentPath⟩
    let input ← if task.readsInput source then inputText else pure ""
    carryOut documentPath (taskReply endlessRounds verbosity surroundings input task)

end Cfpl.Command

def main (arguments : List String) : IO UInt32 := Cfpl.Command.execute arguments
