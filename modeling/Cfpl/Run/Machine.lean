import Cfpl.Run.Basic

/-! The run of a program in small steps. What is left to do with the value of an expression stands beside
it, and what is left to do behind a statement waits in a list. A loop has no limit here. -/

namespace Cfpl.Run

/-- What is done with a value inside an expression. -/
inductive Operand where
  | assign (name : Token)
  | unary (operator : Token)
  | logical (operator : Token) (right : Node)
  | left (operator : Token) (right : Node)
  | right (operator : Token) (left : Value)

/-- What a statement does with the value of its expression. -/
inductive Use where
  | discard
  | output
  | declare (name : Token) (dataType : Option Token)
  | branch (thenBranch elseBranch : Node)
  | loop (condition body : Node)

inductive Task where
  | rest (nodes : List Node)
  | leave
  | again (condition body : Node)
  | fields (names : List Token) (fields : List String)

inductive Control where
  | evaluate (node : Node) (operands : List Operand) (use : Use)
  | value (value : Value) (operands : List Operand) (use : Use)
  | execute (node : Node)
  | done
  | raised (halt : Halt)

structure Config where
  control : Control
  tasks : List Task
  state : State

/-- What comes next, and what has to wait until that is done. -/
structure Move where
  control : Control
  waits : List Task

def enterExpression (operands : List Operand) (use : Use) : Node → Run Move
  | .literal (some value) => return ⟨.value value operands use, []⟩
  | .literal none => misuse .missingLiteral
  | .grouping body => return ⟨.evaluate body operands use, []⟩
  | .reference name => return ⟨.value (← lookup name) operands use, []⟩
  | .assign name body => return ⟨.evaluate body (.assign name :: operands) use, []⟩
  | .unary operator right => return ⟨.evaluate right (.unary operator :: operands) use, []⟩
  | .logical left operator right => return ⟨.evaluate left (.logical operator right :: operands) use, []⟩
  | .binary left operator right => return ⟨.evaluate left (.left operator right :: operands) use, []⟩
  | _ => misuse .notExpression

variable (settings : Settings)

def assignTraced (name : Token) (value : Value) : Run Value := do
  assign name value
  record settings (.assign name.lexeme value)
  return value

def supply (value : Value) (operands : List Operand) (use : Use) : Operand → Run Move
  | .assign name => return ⟨.value (← assignTraced settings name value) operands use, []⟩
  | .unary operator => return ⟨.value (← ofExcept (Operation.unary operator value)) operands use, []⟩
  | .logical operator right =>
    if value.holds = (operator.symbol = .orWord : Bool) then return ⟨.value value operands use, []⟩
    else return ⟨.evaluate right operands use, []⟩
  | .left operator right => return ⟨.evaluate right (.right operator value :: operands) use, []⟩
  | .right operator left =>
    return ⟨.value (← ofExcept (Operation.binary operator left value)) operands use, []⟩

def consume (value : Value) : Use → Run Move
  | .discard => return ⟨.done, []⟩
  | .output => do
    emit (.output value.output)
    return ⟨.done, []⟩
  | .declare name dataType => do
    declareAs settings name dataType (some value)
    return ⟨.done, []⟩
  | .branch thenBranch elseBranch => do
    record settings (.branch value)
    if value.holds then return ⟨.execute thenBranch, []⟩
    else if elseBranch.isAbsent then return ⟨.done, []⟩
    else return ⟨.execute elseBranch, []⟩
  | .loop condition body => do
    record settings (.loop value)
    if value.holds then return ⟨.execute body, [.again condition body]⟩ else return ⟨.done, []⟩

def enterScope : Run Unit := fun state => .ok () state.enterScope

def leaveScope : Run Unit := fun state => .ok () state.leaveScope

def enterBody : Node → Run Move
  | .expression body => return ⟨.evaluate body [] .discard, []⟩
  | .output body => return ⟨.evaluate body [] .output, []⟩
  | .declare name initial dataType =>
    if initial.isAbsent then do
      declareAs settings name dataType none
      return ⟨.done, []⟩
    else return ⟨.evaluate initial [] (.declare name dataType), []⟩
  | .block body => do
    enterScope
    return ⟨.done, [.rest body, .leave]⟩
  | .input names => do
    match ← readFields names with
    | some fields => return ⟨.done, [.fields names fields]⟩
    | none => return ⟨.done, []⟩
  | .branch condition thenBranch elseBranch =>
    return ⟨.evaluate condition [] (.branch thenBranch elseBranch), []⟩
  | .loop condition body => return ⟨.evaluate condition [] (.loop condition body), []⟩
  | _ => misuse .notStatement

def enterStatement (node : Node) : Run Move := do
  record settings (.execute node.label)
  enterBody settings node

def resume : Task → Run Move
  | .rest [] => return ⟨.done, []⟩
  | .rest (first :: others) => return ⟨.execute first, [.rest others]⟩
  | .leave => do
    leaveScope
    return ⟨.done, []⟩
  | .again condition body => return ⟨.evaluate condition [] (.loop condition body), []⟩
  | .fields (name :: names) (field :: fields) => do
    inputField settings name field
    return ⟨.done, [.fields names fields]⟩
  | .fields _ _ => return ⟨.done, []⟩

def Config.after (tasks : List Task) : EStateM.Result Halt State Move → Config
  | .ok move state => ⟨move.control, move.waits ++ tasks, state⟩
  | .error halt state => ⟨.raised halt, tasks, state⟩

/-- The next step; none at the end. A program that is halted does nothing more than to leave its
scopes. -/
def Config.next : Config → Option Config
  | ⟨.evaluate node operands use, tasks, state⟩ =>
    some (.after tasks (enterExpression operands use node state))
  | ⟨.value value (operand :: operands) use, tasks, state⟩ =>
    some (.after tasks (supply settings value operands use operand state))
  | ⟨.value value [] use, tasks, state⟩ => some (.after tasks (consume settings value use state))
  | ⟨.execute node, tasks, state⟩ => some (.after tasks (enterStatement settings node state))
  | ⟨.done, task :: tasks, state⟩ => some (.after tasks (resume settings task state))
  | ⟨.raised halt, .leave :: tasks, state⟩ => some ⟨.raised halt, tasks, state.leaveScope⟩
  | ⟨.raised halt, _ :: tasks, state⟩ => some ⟨.raised halt, tasks, state⟩
  | ⟨.done, [], _⟩ | ⟨.raised _, [], _⟩ => none

/-- The next step stops the program with a fault. All such steps are in the midst of an expression, but for the one
that looks for a variable of an input line. -/
inductive Config.Faults : Config → Token → Fault → Prop
  | reference {name : Token} {operands : List Operand} {use : Use} {tasks : List Task} {state : State}
    (undefined : state.scopes.get? name.lexeme = none) :
    Faults ⟨.evaluate (.reference name) operands use, tasks, state⟩ name (.undefinedVariable name.lexeme)
  | assign {name : Token} {value : Value} {operands : List Operand} {use : Use} {tasks : List Task}
    {state : State} {fault : Fault} (refused : state.scopes.assign name.lexeme value = .error fault) :
    Faults ⟨.value value (.assign name :: operands) use, tasks, state⟩ name fault
  | unary {operator token : Token} {value : Value} {operands : List Operand} {use : Use} {tasks : List Task}
    {state : State} {fault : Fault} (failed : Operation.unary operator value = .error (.fault token fault)) :
    Faults ⟨.value value (.unary operator :: operands) use, tasks, state⟩ token fault
  | binary {operator token : Token} {left right : Value} {operands : List Operand} {use : Use}
    {tasks : List Task} {state : State} {fault : Fault}
    (failed : Operation.binary operator left right = .error (.fault token fault)) :
    Faults ⟨.value right (.right operator left :: operands) use, tasks, state⟩ token fault
  | field {name : Token} {names : List Token} {field : String} {fields : List String} {tasks : List Task}
    {state : State} (undefined : state.scopes.get? name.lexeme = none) :
    Faults ⟨.done, .fields (name :: names) (field :: fields) :: tasks, state⟩ name
      (.undefinedVariable name.lexeme)

end Cfpl.Run
