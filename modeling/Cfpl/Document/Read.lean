import Cfpl.Decimal
import Cfpl.Document.Tree
import Cfpl.Json
import Cfpl.Value.Field

/-! Programs read from JSON documents. Fields that are not asked for are ignored, and the first thing
that is wrong decides. Nothing is checked here about which nodes fit together. -/

namespace Cfpl.Document

inductive Misspelling where
  | notFloat (text : String)
  | tooManyDigits (count : Nat)
  deriving DecidableEq, Repr

def Misspelling.message : Misspelling → String
  | notFloat text => "could not convert string to float: " ++ Text.quoted text
  | tooManyDigits count => (FieldError.tooManyDigits count).message

inductive Flaw where
  | missingField (name : String)
  | unknownName (text : String)
  | nameNotText
  | notProgram
  | unknownNode (shown : String)
  | notNumber (misspelling : Misspelling)
  | numberTooLarge
  | notNode
  | notObject
  | illTyped
  deriving DecidableEq, Repr

def Flaw.detail? : Flaw → Option String
  | missingField name => some name
  | unknownName text => some text
  | notProgram => some "AST file does not hold a Program"
  | unknownNode shown => some ("Unknown AST node type: " ++ shown)
  | notNumber misspelling => some misspelling.message
  | notNode => some "Invalid AST object"
  | nameNotText | numberTooLarge | notObject | illTyped => none

abbrev Fields := List (String × Json)

def field (fields : Fields) (name : String) : Except Flaw Json :=
  match fields.lookup name with
  | some value => .ok value
  | none => .error (.missingField name)

def optionalField (fields : Fields) (name : String) : Json := (fields.lookup name).getD .null

def named {α : Type} (ofName? : String → Option α) : Json → Except Flaw α
  | .string text => match ofName? text with
    | some found => .ok found
    | none => .error (.unknownName text)
  | .array _ | .object _ => .error .illTyped
  | _ => .error .nameNotText

/-- A double, from a number, from the text of one, or from a truth value. -/
def float : Json → Except Flaw Float
  | .float x => .ok x
  | .int n => match Integer.toFloat? n with
    | some x => .ok x
    | none => .error .numberTooLarge
  | .string text => match Decimal.read? text with
    | some x => .ok x
    | none => .error (.notNumber (.notFloat text))
  | .bool truth => .ok (if truth then 1.0 else 0.0)
  | _ => .error .illTyped

def datum : Json → Except Flaw Datum
  | .object fields => do
    let kind ← named Kind.ofLabel? (← field fields "kind")
    let data := optionalField fields "data"
    if other : kind ≠ .float then return .plain kind other data else return .float (← float data)
  | _ => .error .illTyped

def optional {α : Type} (read : Json → Except Flaw α) : Json → Except Flaw (Option α)
  | .null => .ok none
  | given => some <$> read given

def mark : Json → Except Flaw Mark
  | .object fields => do
    let symbol ← named Symbol.ofName? (← field fields "type")
    let lexeme ← field fields "lexeme"
    let literal ← optional datum (optionalField fields "literal")
    let line ← field fields "line"
    return ⟨symbol, lexeme, literal, line⟩
  | _ => .error .notObject

/-- Something that is gone through item by item. The items of an object are its names and those of a
text its characters, and none of these is what is looked for. -/
def items {α : Type} (wrongItem : Flaw) (ofList : List Json → Except Flaw (List α)) :
    Json → Except Flaw (List α)
  | .array items => ofList items
  | .object fields => if fields.isEmpty then .ok [] else .error wrongItem
  | .string text => if text.isEmpty then .ok [] else .error wrongItem
  | _ => .error .illTyped

abbrev Child := String × Except Flaw Tree

def child (children : List Child) (name : String) : Except Flaw Tree :=
  (children.lookup name).getD (.error (.missingField name))

def optionalChild (children : List Child) (name : String) : Except Flaw Tree :=
  (children.lookup name).getD (.ok .absent)

def statementsIn (fields : Fields) (children : List Child) (name : String) :
    Except Flaw (List Tree) := do
  items .notNode (fun _ => do
    match ← child children name with
    | .list statements => .ok statements
    | _ => .error .illTyped) (← field fields name)

def treeOf (fields : Fields) (children : List Child) : Except Flaw Tree :=
  let type := optionalField fields "type"
  match type with
  | .string "Expression" => return .expression (← child children "expression")
  | .string "Print" => return .output (← child children "expression")
  | .string "Var" => do
    let name ← mark (← field fields "name")
    let initial ← optionalChild children "initializer"
    let dataType ← optional mark (optionalField fields "data_type")
    return .declare name initial dataType
  | .string "Block" => return .block (← statementsIn fields children "statements")
  | .string "Input" => return .input (← items .notObject (·.mapM mark) (← field fields "names"))
  | .string "If" => do
    let condition ← child children "condition"
    let thenBranch ← child children "then_branch"
    let elseBranch ← optionalChild children "else_branch"
    return .branch condition thenBranch elseBranch
  | .string "While" => do
    let condition ← child children "condition"
    let body ← child children "body"
    return .loop condition body
  | .string "Literal" => return .literal (← datum (← field fields "value"))
  | .string "Grouping" => return .grouping (← child children "expression")
  | .string "Unary" => do
    let operator ← mark (← field fields "operator")
    let right ← child children "right"
    return .unary operator right
  | .string "Binary" => do
    let left ← child children "left"
    let operator ← mark (← field fields "operator")
    let right ← child children "right"
    return .binary left operator right
  | .string "Logical" => do
    let left ← child children "left"
    let operator ← mark (← field fields "operator")
    let right ← child children "right"
    return .logical left operator right
  | .string "Variable" => return .reference (← mark (← field fields "name"))
  | .string "Assign" => do
    let name ← mark (← field fields "name")
    let value ← child children "value"
    return .assign name value
  | type => .error (.unknownNode type.describe)

mutual

def tree : Json → Except Flaw Tree
  | .null => .ok .absent
  | .array items => (trees items).map .list
  | .object fields => treeOf fields (children fields)
  | _ => .error .notNode

def trees : List Json → Except Flaw (List Tree)
  | [] => .ok []
  | first :: rest => do
    let first ← tree first
    let rest ← trees rest
    return first :: rest

def children : Fields → List Child
  | [] => []
  | (name, value) :: rest => (name, tree value) :: children rest

end

def program : Json → Except Flaw (List Tree)
  | .object fields =>
    match optionalField fields "type" with
    | .string "Program" => do items .notNode trees (← field fields "body")
    | _ => .error .notProgram
  | _ => .error .notObject

end Cfpl.Document
