import Cfpl.Program.Expression
import Cfpl.Source.Basic

/-! Statements read from tokens. A line feed ends a statement. What is wrong with one statement is
reported, and reading goes on with the next one, so a program may have gaps but is always read to its
end. -/

namespace Cfpl

structure Program where
  statements : List Node
  diagnostics : List Diagnostic

namespace Program

open Reader

section Parts

variable (expression : Reader Node) (limit : Nat)

def variableItem : Reader (Token × Node) := do
  let name ← expect .identifier "Expect variable name."
  if ← accept .equal then return (name, ← expression)
  else return (name, .absent)

def sharedType (ending : Reader Unit) : Reader (List Node) := do
  let first ← variableItem expression
  let others ← afterCommas (variableItem expression) limit
  let _ ← expect .asWord "Expect 'AS' after variable declaration."
  let dataType ← expectAny Symbol.isDataType "Expect data type after 'AS'."
  ending
  return (first :: others).map fun (name, initial) => .declare name initial (some dataType)

def declarationLine : Reader (List Node) :=
  sharedType expression limit (endLine "Expect line break after variable declaration.")

def outputLine : Reader Node := do
  let body ← expression
  endLine "Expect line break after 'OUTPUT:' expression."
  return .output body

def inputLine : Reader Node := do
  let first ← expect .identifier "Expect variable name after 'INPUT:'."
  let others ← afterCommas (expect .identifier "Expect variable name after ','.") limit
  endLine "Expect line break after 'INPUT:' variables."
  return .input (first :: others)

def expressionLine : Reader Node := do
  let body ← expression
  endLine "Expect line break after expression."
  return .expression body

variable (statement : Reader Node)

def declaration : Reader (List Node) :=
  recovering do
    if ← accept .varWord then declarationLine expression limit
    else return [← statement]

def blockLines : Reader Node := do
  endLine "Expect line break after 'START'."
  let body ← upTo (do return (← at? .stop) || (← atEnd)) (declaration expression limit statement) limit
  let _ ← expect .stop "Expect 'STOP' after block."
  endLine "Expect line break after 'STOP'."
  return .block body

def branchLines : Reader Node := do
  let _ ← expect .leftParen "Expect '(' after 'IF'."
  let condition ← expression
  let _ ← expect .rightParen "Expect ')' after if condition."
  let _ ← expect .newline "Expect line break after if condition."
  let thenBranch ← statement
  if ← accept .elseWord then
    let _ ← expect .newline "Expect line break after 'ELSE'."
    return .branch condition thenBranch (← statement)
  else return .branch condition thenBranch .absent

def loopLines : Reader Node := do
  let _ ← expect .leftParen "Expect '(' after 'WHILE'."
  let condition ← expression
  let _ ← expect .rightParen "Expect ')' after while condition."
  let _ ← expect .newline "Expect line break after while condition."
  return .loop condition (← statement)

def countingStart : Reader (List Node) := do
  if ← accept .semicolon then return []
  else if ← accept .varWord then
    sharedType expression limit do
      let _ ← expect .semicolon "Expect ';' after loop variable declaration."
  else
    let body ← expression
    let _ ← expect .semicolon "Expect ';' after loop initializer."
    return [.expression body]

def unlessAt (symbol : Symbol) : Reader (Option Node) := do
  if ← at? symbol then return none else return some (← expression)

/-- The step of a counting loop. A semicolon may stand behind a step, but not in place of one. -/
def countingStep : Reader (Option Node) := do
  match ← unlessAt expression .rightParen with
  | none => return none
  | some step =>
    let _ ← accept .semicolon
    return some step

end Parts

/-- A counting loop in terms of the other statements: a block with what it starts with and a loop
whose body ends with the step. A loop without a condition goes on for ever. -/
def countingLoop (start : List Node) (condition step : Option Node) (body : Node) : Node :=
  let round := match step with
    | some step => .block [body, .expression step]
    | none => body
  let loop := .loop (condition.getD (.literal (some (.boolean true)))) round
  if start.isEmpty then loop else .block (start ++ [loop])

section Parts

variable (expression : Reader Node) (limit : Nat) (statement : Reader Node)

def countingLines : Reader Node := do
  let _ ← expect .leftParen "Expect '(' after 'FOR'."
  let start ← countingStart expression limit
  let condition ← unlessAt expression .semicolon
  let _ ← expect .semicolon "Expect ';' after loop condition."
  let step ← countingStep expression
  let _ ← expect .rightParen "Expect ')' after for clauses."
  let _ ← expect .newline "Expect line break after for clauses."
  return countingLoop start condition step (← statement)

structure Clauses where
  start : List Node
  condition : Option Node
  step : Option Node
  body : Node

def Clauses.loop (clauses : Clauses) : Node :=
  countingLoop clauses.start clauses.condition clauses.step clauses.body

def countingClauses : Reader Clauses := do
  let _ ← expect .leftParen "Expect '(' after 'FOR'."
  let start ← countingStart expression limit
  let condition ← unlessAt expression .semicolon
  let _ ← expect .semicolon "Expect ';' after loop condition."
  let step ← countingStep expression
  let _ ← expect .rightParen "Expect ')' after for clauses."
  let _ ← expect .newline "Expect line break after for clauses."
  return ⟨start, condition, step, ← statement⟩

theorem countingLines_eq :
    countingLines expression limit statement =
      Clauses.loop <$> countingClauses expression limit statement := by
  simp only [countingClauses, map_bind, map_pure]
  rfl

end Parts

def startsLines : Symbol → Bool
  | .outputWord | .inputWord | .ifWord | .whileWord | .forWord | .start => true
  | _ => false

def statement : (limit : Nat) → Reader Node
  | 0 => throw .exhausted
  | limit + 1 => do
    let inner := expression (limit + 1)
    match (← take? startsLines).map Token.symbol with
    | some .outputWord => outputLine inner
    | some .inputWord => inputLine limit
    | some .ifWord => branchLines inner (statement limit)
    | some .whileWord => loopLines inner (statement limit)
    | some .forWord => countingLines inner limit (statement limit)
    | some .start => blockLines inner limit (statement limit)
    | _ => expressionLine inner

def reader (limit : Nat) : Reader (List Node) :=
  .upTo .atEnd (declaration (expression limit) limit (statement limit)) limit

/-- The program up to the first token that ends a text; none if there is no such token. -/
def ofTokens? (tokens : List Token) : Option Program :=
  match reader tokens.length ⟨tokens, []⟩ with
  | .ok statements position => some ⟨statements, position.reports⟩
  | .error _ _ => none

def ofSource (source : String) : Program :=
  match ofTokens? (Source.tokens source) with
  | some program => { program with diagnostics := Source.diagnostics source ++ program.diagnostics }
  | none => ⟨[], Source.diagnostics source⟩

end Program

end Cfpl
