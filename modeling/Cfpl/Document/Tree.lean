import Cfpl.Json
import Cfpl.Symbol
import Cfpl.Value.Basic

/-! Programs as they stand in documents: an object for each node, token and value, with a fixed order of fields. A
document may put any node anywhere, and of what is in a token or a value only the data of doubles are looked at. -/

namespace Cfpl.Document

/-- A value of a document: a double, or any other kind with whatever data. -/
inductive Datum where
  | float (x : Float)
  | plain (kind : Kind) (notFloat : kind ≠ .float) (data : Json)

structure Mark where
  symbol : Symbol
  lexeme : Json
  literal : Option Datum
  line : Json

inductive Tree where
  | absent
  | list (items : List Tree)
  | expression (body : Tree)
  | output (body : Tree)
  | declare (name : Mark) (initial : Tree) (dataType : Option Mark)
  | block (body : List Tree)
  | input (names : List Mark)
  | branch (condition thenBranch elseBranch : Tree)
  | loop (condition body : Tree)
  | literal (value : Datum)
  | grouping (body : Tree)
  | unary (operator : Mark) (right : Tree)
  | binary (left : Tree) (operator : Mark) (right : Tree)
  | logical (left : Tree) (operator : Mark) (right : Tree)
  | reference (name : Mark)
  | assign (name : Mark) (value : Tree)

def ofDatum : Datum → Json
  | .float x => .object [("kind", .string Kind.float.label),
    ("data", if x.isFinite then .float x else .string (Decimal.documentLayout.write x))]
  | .plain kind _ data => .object [("kind", .string kind.label), ("data", data)]

def ofMark (mark : Mark) : Json :=
  .object [("type", .string mark.symbol.name), ("lexeme", mark.lexeme),
    ("literal", (mark.literal.map ofDatum).getD .null), ("line", mark.line)]

def tagged (type : String) (fields : List (String × Json)) : Json :=
  .object (("type", .string type) :: fields)

mutual

def ofTree : Tree → Json
  | .absent => .null
  | .list items => .array (ofTrees items)
  | .expression body => tagged "Expression" [("expression", ofTree body)]
  | .output body => tagged "Print" [("expression", ofTree body)]
  | .declare name initial dataType => tagged "Var" [("name", ofMark name),
    ("initializer", ofTree initial), ("data_type", (dataType.map ofMark).getD .null)]
  | .block body => tagged "Block" [("statements", .array (ofTrees body))]
  | .input names => tagged "Input" [("names", .array (names.map ofMark))]
  | .branch condition thenBranch elseBranch => tagged "If" [("condition", ofTree condition),
    ("then_branch", ofTree thenBranch), ("else_branch", ofTree elseBranch)]
  | .loop condition body =>
    tagged "While" [("condition", ofTree condition), ("body", ofTree body)]
  | .literal value => tagged "Literal" [("value", ofDatum value)]
  | .grouping body => tagged "Grouping" [("expression", ofTree body)]
  | .unary operator right =>
    tagged "Unary" [("operator", ofMark operator), ("right", ofTree right)]
  | .binary left operator right => tagged "Binary" [("left", ofTree left),
    ("operator", ofMark operator), ("right", ofTree right)]
  | .logical left operator right => tagged "Logical" [("left", ofTree left),
    ("operator", ofMark operator), ("right", ofTree right)]
  | .reference name => tagged "Variable" [("name", ofMark name)]
  | .assign name value => tagged "Assign" [("name", ofMark name), ("value", ofTree value)]

def ofTrees : List Tree → List Json
  | [] => []
  | first :: rest => ofTree first :: ofTrees rest

end

def ofProgram (statements : List Tree) : Json :=
  tagged "Program" [("body", .array (ofTrees statements))]

end Cfpl.Document
