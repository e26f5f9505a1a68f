import Cfpl.Document.Read
import Cfpl.Document.Tree
import Cfpl.Node

/-! Programs to be run and their documents. The data of values and tokens in a document may be anything,
those of a program are what their kinds say. A literal without a value has no document. -/

namespace Cfpl.Document

namespace Datum

def ofValue : Value → Datum
  | .integer n => .plain .integer (by decide) (.int n)
  | .float x => .float x
  | .character c => .plain .character (by decide) (.string (.singleton c))
  | .boolean truth => .plain .boolean (by decide) (.bool truth)
  | .string text => .plain .string (by decide) (.string text)
  | .absent note => .plain .absent (by decide) note

def plainValue? : Kind → Json → Option Value
  | .integer, .int n => some (.integer n)
  | .character, .string text => match text.toList with
    | [c] => some (.character c)
    | _ => none
  | .boolean, .bool truth => some (.boolean truth)
  | .string, .string text => some (.string text)
  | .absent, note => some (.absent note)
  | _, _ => none

def value? : Datum → Option Value
  | .float x => some (.float x)
  | .plain kind _ data => plainValue? kind data

end Datum

namespace Mark

def ofToken (token : Token) : Mark :=
  ⟨token.symbol, .string token.lexeme, token.literal.map .ofValue, .int token.line⟩

def token? (mark : Mark) : Option Token :=
  match mark.lexeme, mark.line with
  | .string lexeme, .int line => do
    return ⟨mark.symbol, lexeme, ← mark.literal.mapM Datum.value?, line⟩
  | _, _ => none

end Mark

namespace Tree

mutual

def ofNode? : Node → Option Tree
  | .absent => some .absent
  | .list items => return .list (← ofNodes? items)
  | .expression body => return .expression (← ofNode? body)
  | .output body => return .output (← ofNode? body)
  | .declare name initial dataType =>
    return .declare (.ofToken name) (← ofNode? initial) (dataType.map .ofToken)
  | .block body => return .block (← ofNodes? body)
  | .input names => some (.input (names.map .ofToken))
  | .branch condition thenBranch elseBranch =>
    return .branch (← ofNode? condition) (← ofNode? thenBranch) (← ofNode? elseBranch)
  | .loop condition body => return .loop (← ofNode? condition) (← ofNode? body)
  | .literal value => value.map fun value => .literal (.ofValue value)
  | .grouping body => return .grouping (← ofNode? body)
  | .unary operator right => return .unary (.ofToken operator) (← ofNode? right)
  | .binary left operator right =>
    return .binary (← ofNode? left) (.ofToken operator) (← ofNode? right)
  | .logical left operator right =>
    return .logical (← ofNode? left) (.ofToken operator) (← ofNode? right)
  | .reference name => some (.reference (.ofToken name))
  | .assign name value => return .assign (.ofToken name) (← ofNode? value)

def ofNodes? : List Node → Option (List Tree)
  | [] => some []
  | first :: rest => return (← ofNode? first) :: (← ofNodes? rest)

end

mutual

def node? : Tree → Option Node
  | .absent => some .absent
  | .list items => return .list (← nodes? items)
  | .expression body => return .expression (← body.node?)
  | .output body => return .output (← body.node?)
  | .declare name initial dataType =>
    return .declare (← name.token?) (← initial.node?) (← dataType.mapM Mark.token?)
  | .block body => return .block (← nodes? body)
  | .input names => return .input (← names.mapM Mark.token?)
  | .branch condition thenBranch elseBranch =>
    return .branch (← condition.node?) (← thenBranch.node?) (← elseBranch.node?)
  | .loop condition body => return .loop (← condition.node?) (← body.node?)
  | .literal value => return .literal (some (← value.value?))
  | .grouping body => return .grouping (← body.node?)
  | .unary operator right => return .unary (← operator.token?) (← right.node?)
  | .binary left operator right =>
    return .binary (← left.node?) (← operator.token?) (← right.node?)
  | .logical left operator right =>
    return .logical (← left.node?) (← operator.token?) (← right.node?)
  | .reference name => return .reference (← name.token?)
  | .assign name value => return .assign (← name.token?) (← value.node?)

def nodes? : List Tree → Option (List Node)
  | [] => some []
  | first :: rest => return (← first.node?) :: (← nodes? rest)

end

end Tree

def checked {α β : Type} (typed? : α → Option β) (given : Except Flaw α) : Except Flaw β := do
  match typed? (← given) with
  | some result => return result
  | none => .error .illTyped

def value (document : Json) : Except Flaw Value := checked Datum.value? (datum document)

def ofValue (value : Value) : Json := ofDatum (.ofValue value)

def token (document : Json) : Except Flaw Token := checked Mark.token? (mark document)

def statements (document : Json) : Except Flaw (List Node) :=
  checked Tree.nodes? (program document)

def ofStatements? (statements : List Node) : Option Json :=
  (Tree.ofNodes? statements).map ofProgram

end Cfpl.Document
