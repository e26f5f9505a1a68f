import Cfpl.Value.Basic

/-! Tokens, why a run ends at one of them before the last statement, and what is reported about a program: a line, the
place on it, a message, and whether the program was stopped by it. -/

namespace Cfpl

structure Token where
  symbol : Symbol
  lexeme : String
  literal : Option Value
  line : Int
  deriving Inhabited

namespace Token

def summary (token : Token) : String :=
  if token.literal.isSome || token.symbol = .identifier then
    token.symbol.name ++ "(" ++ token.lexeme ++ ")"
  else token.symbol.name

def shift (lines : Int) (token : Token) : Token := { token with line := token.line + lines }

@[simp] theorem shift_zero (token : Token) : token.shift 0 = token := by
  simp [shift]

end Token

inductive Fault where
  | undefinedVariable (name : String)
  | kindMismatch (name : String) (expected received : Kind)
  | divisionByZero
  | remainderOperands
  | numberOperand
  | sumOperands
  | unaryOperator (lexeme : String)
  | unknownOperator (lexeme : String)
  deriving DecidableEq, Repr

def Fault.message : Fault → String
  | undefinedVariable name => "Undefined variable '" ++ name ++ "'."
  | kindMismatch name expected received =>
    name ++ " expects " ++ expected.name ++ " but received " ++ received.name ++ " instead."
  | divisionByZero => "Division by zero."
  | remainderOperands => "Modulo only accepts two integers."
  | numberOperand => "Operand must be a number."
  | sumOperands => "Operands must be a number or a string."
  | unaryOperator lexeme => "Unsupported unary operator '" ++ lexeme ++ "'."
  | unknownOperator lexeme => "Unknown operator '" ++ lexeme ++ "'."

/-- What only a tree can do wrong that was put together by hand. -/
inductive Misuse where
  | notStatement
  | notExpression
  | missingLiteral
  | missingDataType
  | notDataType
  | noNames
  | integerTooLarge
  deriving DecidableEq, Repr

/-- A fault belongs to a token of the program. A run is unfinished if a loop has gone through all the
rounds it was allowed. -/
inductive Halt where
  | fault (token : Token) (fault : Fault)
  | misuse (misuse : Misuse)
  | unfinished

def Halt.shift (lines : Int) : Halt → Halt
  | fault token reason => fault (token.shift lines) reason
  | halt => halt

@[simp] theorem Halt.shift_zero (halt : Halt) : halt.shift 0 = halt := by
  cases halt <;> simp [Halt.shift]

inductive Place where
  | line
  | endOfText
  | token (lexeme : String)
  deriving DecidableEq, Repr

def Place.phrase : Place → String
  | line => ""
  | endOfText => " at end"
  | token lexeme => " at '" ++ lexeme ++ "'"

structure Diagnostic where
  line : Int
  place : Place
  message : String
  runtime : Bool
  deriving DecidableEq, Repr

namespace Diagnostic

def onLine (line : Int) (message : String) : Diagnostic := ⟨line, .line, message, false⟩

def atToken (token : Token) (message : String) : Diagnostic :=
  ⟨token.line, if token.symbol = .endOfText then .endOfText else .token token.lexeme, message, false⟩

def stopping (token : Token) (message : String) : Diagnostic := ⟨token.line, .line, message, true⟩

def text (diagnostic : Diagnostic) : String :=
  if diagnostic.runtime then diagnostic.message ++ "\n[line " ++ toString diagnostic.line ++ "]"
  else "[line " ++ toString diagnostic.line ++ "] Error" ++ diagnostic.place.phrase ++ ": " ++
    diagnostic.message

def shift (lines : Int) (diagnostic : Diagnostic) : Diagnostic :=
  { diagnostic with line := diagnostic.line + lines }

theorem atToken_shift (lines : Int) (token : Token) (message : String) :
    atToken (token.shift lines) message = (atToken token message).shift lines := rfl

@[simp] theorem shift_zero (diagnostic : Diagnostic) : diagnostic.shift 0 = diagnostic := by
  simp [shift]

end Diagnostic

structure Journal where
  entries : List Diagnostic
  deriving DecidableEq, Repr

namespace Journal

def empty : Journal := ⟨[]⟩

def add (journal : Journal) (diagnostic : Diagnostic) : Journal :=
  ⟨journal.entries ++ [diagnostic]⟩

def addAll (journal : Journal) (diagnostics : List Diagnostic) : Journal :=
  diagnostics.foldl add journal

@[simp] theorem entries_addAll (journal : Journal) (diagnostics : List Diagnostic) :
    (journal.addAll diagnostics).entries = journal.entries ++ diagnostics := by
  induction diagnostics generalizing journal with
  | nil => simp [addAll]
  | cons diagnostic diagnostics ih =>
    rw [addAll, List.foldl_cons, ← addAll, ih]
    simp [add]

def hadError (journal : Journal) : Bool := journal.entries.any fun entry => !entry.runtime

def hadRuntimeError (journal : Journal) : Bool := journal.entries.any Diagnostic.runtime

def messages (journal : Journal) : List String := journal.entries.map Diagnostic.message

def last? (journal : Journal) : Option Diagnostic := journal.entries.getLast?

end Journal

/-- What was reported, with a flag for each of its two kinds that is set on the way and never taken back. -/
structure Reporter where
  entries : List Diagnostic
  hadError : Bool
  hadRuntimeError : Bool

namespace Reporter

def report (reporter : Reporter) (diagnostic : Diagnostic) : Reporter :=
  let told := { reporter with entries := reporter.entries ++ [diagnostic] }
  if diagnostic.runtime then { told with hadRuntimeError := true } else { told with hadError := true }

end Reporter

def Journal.reporter (journal : Journal) : Reporter :=
  ⟨journal.entries, journal.hadError, journal.hadRuntimeError⟩

end Cfpl
