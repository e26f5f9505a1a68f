import Cfpl.Text

/-! The arguments of the command. An option may stand before or after the program's name and may be
shortened as long as no other option begins the same way. Behind two hyphens nothing is an option. -/

namespace Cfpl.Command

inductive Switch where
  | help
  | verbose
  deriving DecidableEq, Repr

namespace Switch

def ofLetter? : Char → Option Switch
  | 'h' => some help
  | 'v' => some verbose
  | _ => none

def name : Switch → String
  | help => "-h/--help"
  | verbose => "-v"

end Switch

inductive Selector where
  | emit
  | document
  deriving DecidableEq, Repr

def Selector.name : Selector → String
  | emit => "--emit-ast"
  | document => "--ast"

inductive LongOption where
  | switch (switch : Switch)
  | selector (selector : Selector)

def LongOption.names : List (String × LongOption) :=
  [("help", .switch .help), ("emit-ast", .selector .emit), ("ast", .selector .document)]

structure Attachment where
  signed : Bool
  text : List Char

inductive Argument where
  | operand (text : String)
  | letters (first : Switch) (attached : Option Attachment)
  | long (option : LongOption) (attached : Option Attachment)
  | unknown
  | ambiguous (longNames : List String)

/-- A text that looks like a number below zero is no option. -/
def isNegativeNumber (digits : List Char) : Bool :=
  let isDigit (c : Char) : Bool := (Text.digitValue? c).isSome
  let rest := digits.dropWhile isDigit
  match rest with
  | [] => !digits.isEmpty
  | '.' :: fraction => !fraction.isEmpty && fraction.all isDigit
  | _ => false

def splitSign (text : List Char) : List Char × Option Attachment :=
  match text.dropWhile (· != '=') with
  | [] => (text, none)
  | _ :: attached => (text.takeWhile (· != '='), some ⟨true, attached⟩)

def longArgument (argument : String) (body : List Char) : Argument :=
  let (name, attached) := splitSign body
  match LongOption.names.filter fun (long, _) => name.isPrefixOf long.toList with
  | [] => if argument.contains ' ' then .operand argument else .unknown
  | [(_, option)] => .long option attached
  | several => .ambiguous (several.map fun (long, _) => "--" ++ long)

def shortArgument (argument : String) (letter : Char) (rest : List Char) : Argument :=
  match Switch.ofLetter? letter with
  | some switch => .letters switch <| match rest with
    | [] => none
    | '=' :: attached => some ⟨true, attached⟩
    | attached => some ⟨false, attached⟩
  | none =>
    if isNegativeNumber (letter :: rest) || argument.contains ' ' then .operand argument
    else .unknown

def Argument.ofText (argument : String) : Argument :=
  match argument.toList with
  | '-' :: '-' :: body => longArgument argument body
  | '-' :: letter :: rest => shortArgument argument letter rest
  | _ => .operand argument

inductive UsageError where
  | ambiguous (argument : String) (longNames : List String)
  | unusedValue (switch : Switch) (value : List Char)
  | missingValue (selector : Selector)
  | excluded (selector other : Selector)
  | unrecognized (arguments : List String)
  | missingProgram
  deriving DecidableEq, Repr

def UsageError.message : UsageError → String
  | ambiguous argument longNames =>
    "ambiguous option: " ++ argument ++ " could match " ++ ", ".intercalate longNames
  | unusedValue switch value =>
    "argument " ++ switch.name ++ ": ignored explicit argument " ++ Text.quoted (.ofList value)
  | missingValue selector => "argument " ++ selector.name ++ ": expected one argument"
  | excluded selector other =>
    "argument " ++ selector.name ++ ": not allowed with argument " ++ other.name
  | unrecognized arguments => "unrecognized arguments: " ++ " ".intercalate arguments
  | missingProgram => "missing program file; or use --emit-ast/--ast"

inductive Refusal where
  | help
  | usage (error : UsageError)
  deriving DecidableEq, Repr

structure Options where
  verbosity : Nat
  emit : Option String
  document : Option String
  program : Option String

/-- What has been read so far: besides the options, whether the place of the program's name is taken
and what was left over. -/
structure Progress where
  options : Options
  taken : Bool
  left : List String

namespace Progress

def initial : Progress := ⟨⟨0, none, none, none⟩, false, []⟩

def leave (progress : Progress) (arguments : List String) : Progress :=
  { progress with left := progress.left ++ arguments }

def operand (progress : Progress) (text : String) : Progress :=
  if progress.taken then progress.leave [text]
  else { progress with options := { progress.options with program := some text }, taken := true }

def switched (progress : Progress) : Switch → Except Refusal Progress
  | .help => .error .help
  | .verbose => .ok { progress with
      options := { progress.options with verbosity := progress.options.verbosity + 1 } }

def selected (progress : Progress) (selector : Selector) (value : String) : Except Refusal Progress :=
  match selector with
  | .emit =>
    if progress.options.document.isSome then .error (.usage (.excluded .emit .document))
    else .ok { progress with options := { progress.options with emit := some value } }
  | .document =>
    if progress.options.emit.isSome then .error (.usage (.excluded .document .emit))
    else .ok { progress with options := { progress.options with document := some value } }

end Progress

/-- Letters that follow an option letter, each an option of its own. From the first one on that is no
option, they are left over. -/
def moreLetters : Switch → List Char → Except UsageError (List Switch × List String)
  | switch, [] => .ok ([switch], [])
  | switch, '=' :: value => .error (.unusedValue switch value)
  | switch, '-' :: rest => .error (.unusedValue switch ('-' :: rest))
  | switch, letter :: rest => match Switch.ofLetter? letter with
    | some next => (moreLetters next rest).map fun (switches, left) => (switch :: switches, left)
    | none => .ok ([switch], [.ofList ('-' :: letter :: rest)])

def letterSwitches (first : Switch) (attached : Option Attachment) :
    Except UsageError (List Switch × List String) :=
  match attached with
  | none => .ok ([first], [])
  | some ⟨true, value⟩ => .error (.unusedValue first value)
  | some ⟨false, letters⟩ => moreLetters first letters

/-- The operands behind two hyphens. The hyphens are themselves left over where no name of a program can
follow, except directly behind one. -/
def operandsOnly (progress : Progress) (behindOperand : Bool) (operands : List String) : Progress :=
  let progress := if progress.taken && !behindOperand then progress.leave ["--"] else progress
  operands.foldl Progress.operand progress

/-- Reads arguments one after the other. `behindName` says that the one before is the program's name. -/
def readArguments (progress : Progress) (behindName : Bool) :
    List String → Except Refusal Progress
  | [] => .ok progress
  | "--" :: operands => .ok (operandsOnly progress behindName operands)
  | argument :: rest =>
    match Argument.ofText argument with
    | .operand text => readArguments (progress.operand text) (!progress.taken) rest
    | .unknown => readArguments (progress.leave [argument]) false rest
    | .ambiguous longNames => .error (.usage (.ambiguous argument longNames))
    | .letters first attached => do
      let (switches, left) ← (letterSwitches first attached).mapError .usage
      let progress ← switches.foldlM Progress.switched progress
      readArguments (progress.leave left) false rest
    | .long (.switch switch) (some attachment) => .error (.usage (.unusedValue switch attachment.text))
    | .long (.switch switch) none => do readArguments (← progress.switched switch) false rest
    | .long (.selector selector) (some attachment) => do
      readArguments (← progress.selected selector (.ofList attachment.text)) false rest
    | .long (.selector selector) none =>
      match rest with
      | [] => .error (.usage (.missingValue selector))
      | value :: rest =>
        match if value = "--" then .unknown else Argument.ofText value with
        | .operand value => do readArguments (← progress.selected selector value) false rest
        | _ => .error (.usage (.missingValue selector))

def ambiguity? (argument : String) : Option UsageError :=
  match Argument.ofText argument with
  | .ambiguous longNames => some (.ambiguous argument longNames)
  | _ => none

def Options.read (arguments : List String) : Except Refusal Options :=
  match (arguments.takeWhile (· != "--")).findSome? ambiguity? with
  | some error => .error (.usage error)
  | none => do
    let progress ← readArguments .initial false arguments
    if progress.left.isEmpty then return progress.options else throw (.usage (.unrecognized progress.left))

inductive Task where
  | emit (path : String)
  | runDocument (path : String)
  | runProgram (path : String)
  deriving DecidableEq, Repr

def Task.path : Task → String
  | emit path | runDocument path | runProgram path => path

def Options.task (options : Options) : Except Refusal Task :=
  match options.emit.filter (· != ""), options.document.filter (· != ""),
    options.program.filter (· != "") with
  | some path, _, _ => .ok (.emit path)
  | none, some path, _ => .ok (.runDocument path)
  | none, none, some path => .ok (.runProgram path)
  | none, none, none => .error (.usage .missingProgram)

end Cfpl.Command
