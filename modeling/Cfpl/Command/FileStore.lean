import Cfpl.Command.Reply

/-! A store of files in which commands are carried out one after the other. -/

namespace Cfpl.Command

/-- The files of a working directory by their paths in it, in the order of the paths. A directory is
there if a file lies in it. -/
structure FileStore where
  files : List (String × ByteArray)

namespace FileStore

def empty : FileStore := ⟨[]⟩

def put (path : String) (bytes : ByteArray) : List (String × ByteArray) → List (String × ByteArray)
  | [] => [(path, bytes)]
  | (other, old) :: rest =>
    if path = other then (path, bytes) :: rest
    else if path < other then (path, bytes) :: (other, old) :: rest
    else (other, old) :: put path bytes rest

def write (store : FileStore) (path : String) (bytes : ByteArray) : FileStore :=
  ⟨put path bytes store.files⟩

def key (steps : List String) : String := "/".intercalate steps

def isDirectory (store : FileStore) (steps : List String) : Bool :=
  steps.isEmpty || store.files.any fun (path, _) => ((key steps) ++ "/").toList.isPrefixOf path.toList

inductive Destination where
  | inside (steps : List String)
  | outside
  | nowhere

def follow (store : FileStore) (place : List String) : List String → Destination
  | [] => .inside place
  | ".." :: rest =>
    if !store.isDirectory place then .nowhere
    else if place.isEmpty then
      if rest.all (· == "..") then .outside else .nowhere
    else store.follow place.dropLast rest
  | name :: rest => if store.isDirectory place then store.follow (place ++ [name]) rest else .nowhere

def destination (store : FileStore) (path : Path) : Destination :=
  if path.root = "" then store.follow [] path.steps
  else if path.steps.all (· == "..") then .outside
  else .nowhere

def lookup (store : FileStore) (path : Path) : Lookup :=
  match store.destination path with
  | .inside steps =>
    if store.isDirectory steps then .directory
    else match store.files.lookup (key steps) with
      | some bytes => .file bytes
      | none => .missing
  | .outside => .directory
  | .nowhere => .missing

def documentSteps (store : FileStore) (path : Path) : List String :=
  match store.destination path with
  | .inside steps => ((⟨"", steps⟩ : Path).extended documentEnding).steps
  | _ => []

def surroundings (store : FileStore) (path : Path) : Surroundings :=
  { source := store.lookup path
    traceBlocked := store.isDirectory [traceName]
    documentBlocked := store.isDirectory (store.documentSteps path) }

def keep (store : FileStore) (path : Path) : Option Written → FileStore
  | none => store
  | some (.trace text) => store.write traceName text.toUTF8
  | some (.document text) => store.write (key (store.documentSteps path)) text.toUTF8

def serve (store : FileStore) (rounds : Nat) (arguments : List String) (input : String) :
    Reply × FileStore :=
  match Command.read arguments with
  | .error refusal => (refusalReply refusal, store)
  | .ok (verbosity, task) =>
    let path := Path.ofText task.path
    let reply := taskReply rounds verbosity (store.surroundings path) input task
    (reply, store.keep path reply.written)

def changes (earlier later : FileStore) : List (String × ByteArray) :=
  later.files.filter fun (path, bytes) => (earlier.files.lookup path).map (·.data) != some bytes.data

end FileStore

end Cfpl.Command
