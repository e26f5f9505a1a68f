import Cfpl.Node
import Cfpl.Program.Reader

/-! Expressions read from tokens. The levels from weak to strong are assignment, `OR`, `AND`, equality,
comparison and joining, sum, product, and the operators in front of an operand. A level reads operands
of the next one and groups them to the left; assignment and the operators in front group to the right.

Every function here takes a limit that the number of tokens left never exceeds, so it runs out only
where the tokens do. -/

namespace Cfpl.Program

open Reader

def isEquality : Symbol → Bool
  | .bangEqual | .equalEqual => true
  | _ => false

def isComparison : Symbol → Bool
  | .greater | .greaterEqual | .less | .lessEqual | .ampersand => true
  | _ => false

def isSum : Symbol → Bool
  | .minus | .plus => true
  | _ => false

def isProduct : Symbol → Bool
  | .slash | .star | .percent => true
  | _ => false

def isUnary : Symbol → Bool
  | .notWord | .bang | .minus => true
  | _ => false

def carriesLiteral : Symbol → Bool
  | .number | .text | .character | .lineBreak => true
  | _ => false

def startsPrimary (symbol : Symbol) : Bool :=
  carriesLiteral symbol || symbol = .falseWord || symbol = .trueWord || symbol = .identifier ||
    symbol = .leftParen

def leftGrouped (make : Node → Token → Node → Node) (accepts : Symbol → Bool)
    (operand : Reader Node) : (limit : Nat) → Node → Reader Node
  | 0, _ => throw .exhausted
  | limit + 1, left => do
    match ← take? accepts with
    | some operator =>
      let right ← operand
      leftGrouped make accepts operand limit (make left operator right)
    | none => return left

def level (make : Node → Token → Node → Node) (accepts : Symbol → Bool) (limit : Nat)
    (operand : Reader Node) : Reader Node := do
  leftGrouped make accepts operand limit (← operand)

section Levels

variable (inner : Reader Node) (limit : Nat)

def primary : Reader Node := do
  let token ← expectAny startsPrimary "Expect expression."
  match token.symbol with
  | .falseWord => return .literal (some (.boolean false))
  | .trueWord => return .literal (some (.boolean true))
  | .identifier => return .reference token
  | .leftParen =>
    let body ← inner
    let _ ← expect .rightParen "Expect ')' after expression."
    return .grouping body
  | _ => return .literal token.literal

def operand : (limit : Nat) → Reader Node
  | 0 => throw .exhausted
  | limit + 1 => do
    match ← take? isUnary with
    | some operator => return .unary operator (← operand limit)
    | none => primary inner

def product : Reader Node := level .binary isProduct limit (operand inner limit)

def sum : Reader Node := level .binary isSum limit (product inner limit)

def comparison : Reader Node := level .binary isComparison limit (sum inner limit)

def equality : Reader Node := level .binary isEquality limit (comparison inner limit)

def conjunction : Reader Node := level .logical (· = .andWord) limit (equality inner limit)

def disjunction : Reader Node := level .logical (· = .orWord) limit (conjunction inner limit)

end Levels

/-- An expression. Only a variable can be assigned to; if something else stands before the sign that is
reported, and the expression is what stands there. -/
def expression : (limit : Nat) → Reader Node
  | 0 => throw .exhausted
  | limit + 1 => do
    let target ← disjunction (expression limit) (limit + 1)
    match ← take? (· = .equal) with
    | none => return target
    | some equals =>
      let value ← expression limit
      match target with
      | .reference name => return .assign name value
      | _ =>
        report (.atToken equals "Invalid assignment target.")
        return target

end Cfpl.Program
