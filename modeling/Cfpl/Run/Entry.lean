import Cfpl.Run.Basic

/-! What an input line does to the variables it is read into, said without the steps that do it. Each field
is looked at once, against the variable that its name means by then. It becomes the value of the variable or
leaves it as it is, and what is reported about it depends on which of the two happens and why. -/

namespace Cfpl

/-- The word stands in the field, in letters of any case. No letter beyond the ASCII ones has one of those
of a truth value as its small form. -/
def Field.mentions (word field : String) : Bool :=
  Text.occurs word.toList (field.toList.map Char.toLower)

/-- The fields that a line stands for are what lies between its commas, but for the empty ones at its end. Of
those only the commas in front are left. -/
structure Field.Divides (line : String) (fields : List String) : Prop where
  clean : ∀ field ∈ fields, ',' ∉ field.toList
  last : fields.getLast? ≠ some ""
  spelled : ∃ commas, (fields = [] → 1 ≤ commas) ∧
    line = ",".intercalate fields ++ .ofList (.replicate commas ',')

/-- A variable that held nothing may hold a text; any other keeps its kind. -/
def Value.KeepsKind (old new : Value) : Prop :=
  new.kind = old.kind ∨ old.kind = .absent ∧ new.kind = .string

namespace Scopes

/-- The scopes from the innermost outward, before and after the nearest variable of a name was given a
value. -/
inductive Sets (name : String) (value : Value) : List Frame → List Frame → Prop
  | here {frame : Frame} (known : (frame.get? name).isSome) (outer : List Frame) :
    Sets name value (frame :: outer) (frame.define name value :: outer)
  | further {frame : Frame} {outer after : List Frame} (unknown : frame.get? name = none)
    (behind : Sets name value outer after) : Sets name value (frame :: outer) (frame :: after)

def heldAt? (frames : List Frame) (depth : Nat) (name : String) : Option Value :=
  frames[depth]?.bind fun frame => frame.get? name

/-- The scopes before and after some of the names were given values. Only the nearest variable of such a name
may have changed. -/
structure Refilled (names : List String) (before after : List Frame) : Prop where
  count : after.length = before.length
  others (depth : Nat) (name : String) :
    (name ∈ names → ∃ nearer < depth, (heldAt? before nearer name).isSome) →
    heldAt? after depth name = heldAt? before depth name
  kinds (depth : Nat) (name : String) :
    Option.Rel Value.KeepsKind (heldAt? before depth name) (heldAt? after depth name)

end Scopes

namespace Run

def unreadable (name : Token) (kind : Kind) : Diagnostic :=
  .atToken name ("Incorrect datatype: " ++ name.lexeme ++ " expects " ++ kind.name ++ ".")

def missingValues (name : Token) (expected received : Nat) : Diagnostic :=
  .atToken name ("Missing values: expected " ++ toString expected ++ " but received " ++
    toString received ++ ".")

def State.nextFields (state : State) : List String := (state.pending.head?.map Field.split).getD []

def State.lineRead (state : State) : State :=
  { state with pending := state.pending.drop 1 }.emit (.input state.pending.head?)

def unwanted (name : Token) (kind received : Kind) : Diagnostic :=
  .atToken name (Fault.kindMismatch name.lexeme kind received).message

/-- A field put into the variable of a name. What can be read as a value of the kind of the variable is
stored. What cannot be read so is reported; it is stored all the same if the variable is a truth value and the
field mentions one, and reported once more if not. -/
inductive Entered (name : Token) (field : String) (before : Scopes) :
    Scopes → List Diagnostic → Prop
  | read {current value : Value} {after : Scopes} (found : before.get? name.lexeme = some current)
    (fits : Field.read current.kind field = .ok value)
    (stored : Scopes.Sets name.lexeme value before.frames after.frames) :
    Entered name field before after []
  | guessed {current : Value} {error : FieldError} {after : Scopes}
    (found : before.get? name.lexeme = some current)
    (unfit : Field.read current.kind field = .error error) (truth : current.kind = .boolean)
    (mentioned : Field.mentions "true" field ∨ Field.mentions "false" field)
    (stored : Scopes.Sets name.lexeme (.boolean (Field.mentions "true" field)) before.frames after.frames) :
    Entered name field before after [unreadable name current.kind]
  | refused {current : Value} {error : FieldError} (found : before.get? name.lexeme = some current)
    (unfit : Field.read current.kind field = .error error)
    (other : ¬(current.kind = .boolean ∧ (Field.mentions "true" field ∨ Field.mentions "false" field))) :
    Entered name field before before
      [unreadable name current.kind, unwanted name current.kind (Field.guess field).kind]

inductive EnteredAll : List Token → List String → Scopes → Scopes → List Diagnostic → Prop
  | done (scopes : Scopes) : EnteredAll [] [] scopes scopes []
  | more {name : Token} {names : List Token} {field : String} {fields : List String}
    {before middle after : Scopes} {reports others : List Diagnostic}
    (first : Entered name field before middle reports) (rest : EnteredAll names fields middle after others) :
    EnteredAll (name :: names) (field :: fields) before after (reports ++ others)

/-- A line read for a list of variables. If it has not as many fields as there are variables, that is reported
and no variable is touched. -/
structure LineEntered (names : List Token) (nonempty : names ≠ []) (before after : State)
    (reports : List Diagnostic) : Prop where
  unread : after.pending = before.pending.drop 1
  told : after.events.toList =
    before.events.toList ++ .input before.pending.head? :: reports.map .report
  uneven : before.nextFields.length ≠ names.length → after.scopes = before.scopes ∧
    reports = [missingValues (names.head nonempty) names.length before.nextFields.length]
  paired : before.nextFields.length = names.length →
    EnteredAll names before.nextFields before.scopes after.scopes reports

end Run

end Cfpl
