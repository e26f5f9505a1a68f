import Cfpl.Node.WellFormed
import Cfpl.Program.Expression

/-! Statements and expressions all of whose tokens have a given property, and whose literals are truth
values or come with a token that carries one. What is read from tokens is of this shape, whatever
was wrong with the tokens around it. -/

namespace Cfpl.Node

inductive ExpressionFrom (given : Token → Prop) : Node → Prop where
  | truth (value : Bool) : ExpressionFrom given (.literal (some (.boolean value)))
  | literal {token : Token} :
    given token → Program.carriesLiteral token.symbol → ExpressionFrom given (.literal token.literal)
  | grouping {body : Node} : ExpressionFrom given body → ExpressionFrom given (.grouping body)
  | unary {operator : Token} {right : Node} :
    given operator → operator.symbol ∈ unaryOperators → ExpressionFrom given right →
    ExpressionFrom given (.unary operator right)
  | binary {operator : Token} {left right : Node} :
    given operator → operator.symbol ∈ binaryOperators → ExpressionFrom given left →
    ExpressionFrom given right → ExpressionFrom given (.binary left operator right)
  | logical {operator : Token} {left right : Node} :
    given operator → operator.symbol ∈ logicalOperators → ExpressionFrom given left →
    ExpressionFrom given right → ExpressionFrom given (.logical left operator right)
  | reference {name : Token} :
    given name → name.symbol = .identifier → ExpressionFrom given (.reference name)
  | assign {name : Token} {value : Node} :
    given name → name.symbol = .identifier → ExpressionFrom given value →
    ExpressionFrom given (.assign name value)

/-- Declarations are statements, but no branch and no body of a loop. -/
inductive StatementFrom (given : Token → Prop) : Node → Prop where
  | expression {body : Node} : ExpressionFrom given body → StatementFrom given (.expression body)
  | output {body : Node} : ExpressionFrom given body → StatementFrom given (.output body)
  | declare {name dataType : Token} {initial : Node} :
    given name → name.symbol = .identifier → given dataType → dataType.symbol.isDataType →
    (initial = .absent ∨ ExpressionFrom given initial) →
    StatementFrom given (.declare name initial (some dataType))
  | block {body : List Node} :
    (∀ node ∈ body, StatementFrom given node) → StatementFrom given (.block body)
  | input {names : List Token} :
    names ≠ [] → (∀ name ∈ names, given name ∧ name.symbol = .identifier) →
    StatementFrom given (.input names)
  | branch {condition thenBranch : Node} :
    ExpressionFrom given condition → StatementFrom given thenBranch → ¬thenBranch.isDeclaration →
    StatementFrom given (.branch condition thenBranch .absent)
  | branchElse {condition thenBranch elseBranch : Node} :
    ExpressionFrom given condition → StatementFrom given thenBranch → ¬thenBranch.isDeclaration →
    StatementFrom given elseBranch → ¬elseBranch.isDeclaration →
    StatementFrom given (.branch condition thenBranch elseBranch)
  | loop {condition body : Node} :
    ExpressionFrom given condition → StatementFrom given body → ¬body.isDeclaration →
    StatementFrom given (.loop condition body)

variable {given wider : Token → Prop} {node : Node}

theorem ExpressionFrom.mono (from_ : ExpressionFrom given node)
    (weaker : ∀ token, given token → wider token) : ExpressionFrom wider node := by
  induction from_ with
  | truth value => exact .truth value
  | literal held carries => exact .literal (weaker _ held) carries
  | grouping _ body => exact .grouping body
  | unary held operator _ right => exact .unary (weaker _ held) operator right
  | binary held operator _ _ left right => exact .binary (weaker _ held) operator left right
  | logical held operator _ _ left right => exact .logical (weaker _ held) operator left right
  | reference held name => exact .reference (weaker _ held) name
  | assign held name _ value => exact .assign (weaker _ held) name value

theorem StatementFrom.mono (from_ : StatementFrom given node)
    (weaker : ∀ token, given token → wider token) : StatementFrom wider node := by
  induction from_ with
  | expression body => exact .expression (body.mono weaker)
  | output body => exact .output (body.mono weaker)
  | declare held name typed dataType initial =>
    exact .declare (weaker _ held) name (weaker _ typed) dataType
      (initial.imp_right fun initial => initial.mono weaker)
  | block _ body => exact .block body
  | input some_ names =>
    exact .input some_ fun name member => (names name member).imp_left (weaker name)
  | branch condition _ plain thenBranch => exact .branch (condition.mono weaker) thenBranch plain
  | branchElse condition _ plain _ plainElse thenBranch elseBranch =>
    exact .branchElse (condition.mono weaker) thenBranch plain elseBranch plainElse
  | loop condition _ plain body => exact .loop (condition.mono weaker) body plain

section Literals

variable (carried : ∀ token, given token → Program.carriesLiteral token.symbol → token.literal.isSome)
include carried

theorem ExpressionFrom.isExpression (from_ : ExpressionFrom given node) : node.isExpression := by
  induction from_ with
  | truth value => rfl
  | literal held carries => exact carried _ held carries
  | grouping _ body => exact body
  | unary _ operator _ right => simpa [Node.isExpression, right] using operator
  | binary _ operator _ _ left right => simpa [Node.isExpression, left, right] using operator
  | logical _ operator _ _ left right => simpa [Node.isExpression, left, right] using operator
  | reference _ name => simpa [Node.isExpression] using name
  | assign _ name _ value => simpa [Node.isExpression, value] using name

theorem StatementFrom.isStatement (from_ : StatementFrom given node) : node.isStatement := by
  induction from_ with
  | expression body => exact body.isExpression carried
  | output body => exact body.isExpression carried
  | @declare name dataType initial _ symbol _ typed starts =>
    have initialized : initial.isAbsent || initial.isExpression := by
      rcases starts with rfl | expression
      · rfl
      · rw [expression.isExpression carried, Bool.or_true]
    simp only [Node.isStatement, Option.any_some, symbol, initialized, typed]
    rfl
  | block _ body => exact areStatements_iff.mpr body
  | @input names some_ symbols =>
    have identifiers : ∀ name ∈ names, name.symbol = .identifier := fun name member => (symbols name member).2
    simpa [Node.isStatement, some_] using identifiers
  | branch condition _ plain thenBranch =>
    simp [Node.isStatement, condition.isExpression carried, thenBranch, plain, Node.isAbsent]
  | branchElse condition _ plain _ plainElse thenBranch elseBranch =>
    simp [Node.isStatement, condition.isExpression carried, thenBranch, plain, elseBranch, plainElse]
  | loop condition _ plain body =>
    simp [Node.isStatement, condition.isExpression carried, body, plain]

end Literals

end Cfpl.Node
