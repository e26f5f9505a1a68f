import Cfpl.Node

/-! Which nodes are expressions and which are statements. A program read from tokens consists of such
nodes only; a document may hold others. -/

namespace Cfpl.Node

def unaryOperators : List Symbol := [.notWord, .bang, .minus]

def logicalOperators : List Symbol := [.andWord, .orWord]

def binaryOperators : List Symbol :=
  [.plus, .minus, .star, .slash, .percent, .greater, .greaterEqual, .less, .lessEqual,
    .equalEqual, .bangEqual, .ampersand]

def isExpression : Node → Bool
  | literal value => value.isSome
  | grouping body => body.isExpression
  | unary operator right => unaryOperators.contains operator.symbol && right.isExpression
  | binary left operator right =>
    binaryOperators.contains operator.symbol && left.isExpression && right.isExpression
  | logical left operator right =>
    logicalOperators.contains operator.symbol && left.isExpression && right.isExpression
  | reference name => name.symbol = .identifier
  | assign name value => name.symbol = .identifier && value.isExpression
  | _ => false

def isDeclaration : Node → Bool
  | declare _ _ _ => true
  | _ => false

mutual

/-- Declarations stand in blocks and on the outermost level, but not as a branch or as the body of a
loop. -/
def isStatement : Node → Bool
  | expression body | output body => body.isExpression
  | declare name initial dataType =>
    name.symbol = .identifier && (initial.isAbsent || initial.isExpression) &&
      dataType.any fun type => type.symbol.isDataType
  | block body => areStatements body
  | input names => !names.isEmpty && names.all fun name => name.symbol = .identifier
  | branch condition thenBranch elseBranch =>
    condition.isExpression && thenBranch.isStatement && !thenBranch.isDeclaration &&
      (elseBranch.isAbsent || (elseBranch.isStatement && !elseBranch.isDeclaration))
  | loop condition body => condition.isExpression && body.isStatement && !body.isDeclaration
  | _ => false

def areStatements : List Node → Bool
  | [] => true
  | first :: rest => first.isStatement && areStatements rest

end

theorem areStatements_iff {nodes : List Node} :
    areStatements nodes ↔ ∀ node ∈ nodes, node.isStatement := by
  induction nodes with
  | nil => simp [areStatements]
  | cons first rest ih => simp [areStatements, ih]

end Cfpl.Node
