import Cfpl.Node

/-! The tokens of a node: the names of variables that it mentions, the operators and data types that stand in it, and
the node whose tokens stand a number of lines further down. -/

namespace Cfpl.Node

mutual

def names : Node → List Token
  | absent | literal _ => []
  | list items => namesOfAll items
  | expression body | output body | grouping body => body.names
  | declare name initial _ => name :: initial.names
  | block body => namesOfAll body
  | input names => names
  | branch condition thenBranch elseBranch => condition.names ++ thenBranch.names ++ elseBranch.names
  | loop condition body => condition.names ++ body.names
  | unary _ right => right.names
  | binary left _ right | logical left _ right => left.names ++ right.names
  | reference name => [name]
  | assign name value => name :: value.names

def namesOfAll : List Node → List Token
  | [] => []
  | first :: rest => first.names ++ namesOfAll rest

end

mutual

def marks : Node → List Token
  | absent | literal _ | input _ | reference _ => []
  | list items => marksOfAll items
  | expression body | output body | grouping body => body.marks
  | declare _ initial dataType => dataType.toList ++ initial.marks
  | block body => marksOfAll body
  | branch condition thenBranch elseBranch => condition.marks ++ thenBranch.marks ++ elseBranch.marks
  | loop condition body => condition.marks ++ body.marks
  | unary operator right => operator :: right.marks
  | binary left operator right | logical left operator right => left.marks ++ operator :: right.marks
  | assign _ value => value.marks

def marksOfAll : List Node → List Token
  | [] => []
  | first :: rest => first.marks ++ marksOfAll rest

end

theorem namesOfAll_eq (nodes : List Node) : namesOfAll nodes = nodes.flatMap names := by
  induction nodes with
  | nil => rfl
  | cons first rest ih => rw [namesOfAll, ih, List.flatMap_cons]

theorem marksOfAll_eq (nodes : List Node) : marksOfAll nodes = nodes.flatMap marks := by
  induction nodes with
  | nil => rfl
  | cons first rest ih => rw [marksOfAll, ih, List.flatMap_cons]

mutual

def shift (lines : Int) : Node → Node
  | absent => absent
  | list items => list (shiftAll lines items)
  | expression body => expression (body.shift lines)
  | output body => output (body.shift lines)
  | declare name initial dataType =>
    declare (name.shift lines) (initial.shift lines) (dataType.map (Token.shift lines))
  | block body => block (shiftAll lines body)
  | input names => input (names.map (Token.shift lines))
  | branch condition thenBranch elseBranch =>
    branch (condition.shift lines) (thenBranch.shift lines) (elseBranch.shift lines)
  | loop condition body => loop (condition.shift lines) (body.shift lines)
  | literal value => literal value
  | grouping body => grouping (body.shift lines)
  | unary operator right => unary (operator.shift lines) (right.shift lines)
  | binary left operator right =>
    binary (left.shift lines) (operator.shift lines) (right.shift lines)
  | logical left operator right =>
    logical (left.shift lines) (operator.shift lines) (right.shift lines)
  | .reference name => .reference (name.shift lines)
  | assign name value => assign (name.shift lines) (value.shift lines)

def shiftAll (lines : Int) : List Node → List Node
  | [] => []
  | first :: rest => first.shift lines :: shiftAll lines rest

end

theorem shiftAll_eq_map (lines : Int) (nodes : List Node) :
    shiftAll lines nodes = nodes.map (shift lines) := by
  induction nodes with
  | nil => rfl
  | cons first rest ih => simp [shiftAll, ih]

@[simp] theorem isAbsent_shift (lines : Int) (node : Node) :
    (node.shift lines).isAbsent = node.isAbsent := by
  cases node <;> rfl

theorem tokens_shift_zero : Token.shift 0 = id := funext Token.shift_zero

mutual

theorem shift_zero : ∀ node : Node, node.shift 0 = node
  | absent | literal _ => rfl
  | list items => by rw [shift, shiftAll_zero items]
  | expression body => by rw [shift, shift_zero body]
  | output body => by rw [shift, shift_zero body]
  | declare name initial dataType => by
    rw [shift, shift_zero initial, Token.shift_zero, tokens_shift_zero, Option.map_id]
    rfl
  | block body => by rw [shift, shiftAll_zero body]
  | input names => by rw [shift, tokens_shift_zero, List.map_id]
  | branch condition thenBranch elseBranch => by
    rw [shift, shift_zero condition, shift_zero thenBranch, shift_zero elseBranch]
  | loop condition body => by rw [shift, shift_zero condition, shift_zero body]
  | grouping body => by rw [shift, shift_zero body]
  | unary operator right => by rw [shift, Token.shift_zero, shift_zero right]
  | binary left operator right => by rw [shift, Token.shift_zero, shift_zero left, shift_zero right]
  | logical left operator right => by rw [shift, Token.shift_zero, shift_zero left, shift_zero right]
  | reference name => by rw [shift, Token.shift_zero]
  | assign name value => by rw [shift, Token.shift_zero, shift_zero value]

theorem shiftAll_zero : ∀ nodes : List Node, shiftAll 0 nodes = nodes
  | [] => rfl
  | first :: rest => by rw [shiftAll, shift_zero first, shiftAll_zero rest]

end

end Cfpl.Node
