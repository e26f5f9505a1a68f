import Cfpl.Operation
import Cfpl.Run.State

/-! What the nodes of a program do. Expressions give values; statements change the state. A declaration
or an input line that does not fit is reported and the program goes on; a fault halts it. -/

namespace Cfpl.Run

variable (settings : Settings)

/-- The value of an expression. Operands are computed from left to right; the right one of `AND` and
`OR` only if the left one leaves the answer open. -/
def evaluate : Node → Run Value
  | .literal (some value) => return value
  | .literal none => misuse .missingLiteral
  | .grouping body => evaluate body
  | .reference name => lookup name
  | .assign name body => do
    let value ← evaluate body
    assign name value
    record settings (.assign name.lexeme value)
    return value
  | .unary operator right => do
    let operand ← evaluate right
    ofExcept (Operation.unary operator operand)
  | .logical left operator right => do
    let first ← evaluate left
    if first.holds = (operator.symbol = .orWord : Bool) then return first
    else evaluate right
  | .binary left operator right => do
    let first ← evaluate left
    let second ← evaluate right
    ofExcept (Operation.binary operator first second)
  | _ => misuse .notExpression

/-- What a variable starts with if no value is given. A text must be given one. -/
def startingValue (name : String) (dataType : Token) : Run Value :=
  match Value.initial? dataType.symbol with
  | some value => return value
  | none => do
    report (.atToken dataType ("Incorrect datatype: " ++ name ++ " needs an initial " ++
      dataType.lexeme ++ " value."))
    return .none

def declaredValue (name : String) (dataType : Token) (value : Value) : Run Value :=
  match Kind.ofDataType? dataType.symbol with
  | none => misuse .notDataType
  | some kind =>
    if value.kind = kind then return value
    else do
      report (.atToken dataType ("Incorrect datatype: " ++ name ++ " expects " ++ dataType.lexeme ++
        " but received " ++ value.kind.name ++ " instead."))
      return (Value.initial? dataType.symbol).getD .none

def declarationValue (name : String) : Option Token → Option Value → Run Value
  | none, _ => misuse .missingDataType
  | some dataType, none => startingValue name dataType
  | some dataType, some value => declaredValue name dataType value

def declareAs (name : Token) (dataType : Option Token) (given : Option Value) : Run Unit := do
  let value ← declarationValue name.lexeme dataType given
  define name.lexeme value
  record settings (.define name.lexeme value)

def declare (name : Token) (initial : Node) (dataType : Option Token) : Run Unit := do
  let given ← if initial.isAbsent then pure none else some <$> evaluate settings initial
  declareAs settings name dataType given

/-- Puts one field of an input line into a variable. A field that does not fit is reported, and then
taken for what it looks like if the variable admits that. -/
def inputField (name : Token) (field : String) : Run Unit := do
  let current ← lookup name
  match Field.read current.kind field with
  | .ok value =>
    assign name value
    record settings (.input name.lexeme value)
  | .error _ =>
    report (.atToken name ("Incorrect datatype: " ++ name.lexeme ++ " expects " ++
      current.kind.name ++ "."))
    match ← tryAssign name (Field.guess field) with
    | none => return ()
    | some fault => report (.atToken name fault.message)

def inputFields : List Token → List String → Run Unit
  | name :: names, field :: fields => do
    inputField settings name field
    inputFields names fields
  | _, _ => return ()

def readFields (names : List Token) : Run (Option (List String)) := do
  let fields := ((← readLine).map Field.split).getD []
  if fields.length = names.length then return some fields
  else match names with
    | [] => misuse .noNames
    | first :: _ => do
      report (.atToken first ("Missing values: expected " ++ toString names.length ++
        " but received " ++ toString fields.length ++ "."))
      return none

/-- Reads one line for a list of variables. Nothing is assigned unless there is a field for each. -/
def input (names : List Token) : Run Unit := do
  match ← readFields names with
  | some fields => inputFields settings names fields
  | none => return ()

mutual

def execute (node : Node) : Run Unit := do
  record settings (.execute node.label)
  match node with
  | .expression body => do
    let _ ← evaluate settings body
  | .output body => do
    let value ← evaluate settings body
    emit (.output value.output)
  | .declare name initial dataType => declare settings name initial dataType
  | .block body => inScope (executeAll body)
  | .input names => input settings names
  | .branch condition thenBranch elseBranch => do
    let value ← evaluate settings condition
    record settings (.branch value)
    if value.holds then execute thenBranch
    else if elseBranch.isAbsent then return ()
    else execute elseBranch
  | .loop condition body =>
    let test := do
      let value ← evaluate settings condition
      record settings (.loop value)
      return value.holds
    whileHolds test (execute body) settings.rounds
  | _ => misuse .notStatement

def executeAll : List Node → Run Unit
  | [] => return ()
  | first :: rest => do
    execute first
    executeAll rest

end

end Cfpl.Run
