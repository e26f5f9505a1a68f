import Cfpl.Token

/-! The nodes of a program: its statements and its expressions. A document may put any node anywhere,
so the type does not tell them apart; that a statement or an expression stands where one is needed is
found out when the program runs. -/

namespace Cfpl

inductive Node where
  | absent
  | list (items : List Node)
  | expression (body : Node)
  | output (body : Node)
  | declare (name : Token) (initial : Node) (dataType : Option Token)
  | block (body : List Node)
  | input (names : List Token)
  | branch (condition thenBranch elseBranch : Node)
  | loop (condition body : Node)
  | literal (value : Option Value)
  | grouping (body : Node)
  | unary (operator : Token) (right : Node)
  | binary (left : Node) (operator : Token) (right : Node)
  | logical (left : Node) (operator : Token) (right : Node)
  | reference (name : Token)
  | assign (name : Token) (value : Node)
  deriving Inhabited

namespace Node

def label : Node → String
  | absent => "NoneType"
  | list _ => "list"
  | expression _ => "Expression"
  | output _ => "Print"
  | declare _ _ _ => "Var"
  | block _ => "Block"
  | input _ => "Input"
  | branch _ _ _ => "If"
  | loop _ _ => "While"
  | literal _ => "Literal"
  | grouping _ => "Grouping"
  | unary _ _ => "Unary"
  | binary _ _ _ => "Binary"
  | logical _ _ _ => "Logical"
  | reference _ => "Variable"
  | assign _ _ => "Assign"

def isAbsent : Node → Bool
  | absent => true
  | _ => false

mutual

def asksForInput : Node → Bool
  | input _ => true
  | block body => anyAsksForInput body
  | branch _ thenBranch elseBranch => thenBranch.asksForInput || elseBranch.asksForInput
  | loop _ body => body.asksForInput
  | _ => false

def anyAsksForInput : List Node → Bool
  | [] => false
  | first :: rest => first.asksForInput || anyAsksForInput rest

end

end Node

end Cfpl
