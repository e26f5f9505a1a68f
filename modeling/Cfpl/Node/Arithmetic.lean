import Cfpl.Node
import Cfpl.Scope.Chain

/-! Expressions of whole numbers, and what they are worth as words of 32 bits in two's complement. The word of
an expression is defined whether or not it divides by zero; where it does is read off its divisions, which
are listed in the order in which they are carried out. -/

namespace Cfpl

/-- The word that an operator makes of two. A quotient loses its fraction, and a remainder has the sign of
the dividend. -/
def Symbol.combine : Symbol → BitVec 32 → BitVec 32 → BitVec 32
  | plus, v, w => v + w
  | minus, v, w => v - w
  | star, v, w => v * w
  | slash, v, w => v.sdiv w
  | percent, v, w => v.srem w
  | _, _, _ => 0

def Symbol.divides : Symbol → Bool
  | slash | percent => true
  | _ => false

namespace Node

def arithmeticOperators : List Symbol := [.plus, .minus, .star, .slash, .percent]

/-- Numbers of the 32-bit range, variables that hold one, and what is made of these by the operators of
arithmetic. -/
inductive Arithmetic (scopes : Scopes) : Node → Prop
  | literal {n : Int} (within : Integer.InRange n) : Arithmetic scopes (.literal (some (.integer n)))
  | reference {name : Token} {n : Int} (found : scopes.get? name.lexeme = some (.integer n))
    (within : Integer.InRange n) : Arithmetic scopes (.reference name)
  | grouping {body : Node} (inside : Arithmetic scopes body) : Arithmetic scopes (.grouping body)
  | negation {operator : Token} {right : Node} (sign : operator.symbol = .minus)
    (inside : Arithmetic scopes right) : Arithmetic scopes (.unary operator right)
  | binary {operator : Token} {left right : Node} (sign : operator.symbol ∈ arithmeticOperators)
    (first : Arithmetic scopes left) (second : Arithmetic scopes right) :
    Arithmetic scopes (.binary left operator right)

def word (scopes : Scopes) : Node → BitVec 32
  | .literal (some (.integer n)) => .ofInt 32 n
  | .reference name => match scopes.get? name.lexeme with
    | some (.integer n) => .ofInt 32 n
    | _ => 0
  | .grouping body => body.word scopes
  | .unary _ right => -right.word scopes
  | .binary left operator right => operator.symbol.combine (left.word scopes) (right.word scopes)
  | _ => 0

def divisions : Node → List (Token × Node)
  | .grouping body => body.divisions
  | .unary _ right => right.divisions
  | .binary left operator right => left.divisions ++ (right.divisions ++
    if operator.symbol.divides then [(operator, right)] else [])
  | _ => []

/-- The operator of the first division whose divisor is zero. -/
def zeroDivision? (scopes : Scopes) (node : Node) : Option Token :=
  (node.divisions.find? fun division => division.2.word scopes = 0).map (·.1)

end Node

end Cfpl
