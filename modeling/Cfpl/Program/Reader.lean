import Cfpl.Token

/-! Reading a list of tokens from the front. A step looks at the first token, takes it or leaves it,
and may report something. No step goes beyond the token that ends the text. -/

namespace Cfpl.Program

/-- Why a step gives no result: what it looks for is not there, or the list has come to its end without
the token that ends a text. -/
inductive Trouble where
  | broken
  | exhausted
  deriving DecidableEq, Repr

structure Position where
  rest : List Token
  reports : List Diagnostic

/-- A step keeps its position and its reports when it fails. -/
abbrev Reader := EStateM Trouble Position

namespace Reader

variable {α : Type}

def peek : Reader Token := fun position =>
  match position.rest with
  | [] => .error .exhausted position
  | token :: _ => .ok token position

def atEnd : Reader Bool := return (← peek).symbol = .endOfText

def at? (symbol : Symbol) : Reader Bool := do
  let token ← peek
  return token.symbol ≠ .endOfText && token.symbol = symbol

def take? (accepts : Symbol → Bool) : Reader (Option Token) := fun position =>
  match position.rest with
  | [] => .error .exhausted position
  | token :: rest =>
    if token.symbol ≠ .endOfText && accepts token.symbol then
      .ok (some token) { position with rest := rest }
    else .ok none position

def accept (symbol : Symbol) : Reader Bool :=
  return (← take? (· = symbol)).isSome

def report (diagnostic : Diagnostic) : Reader Unit := fun position =>
  .ok () { position with reports := position.reports ++ [diagnostic] }

def refuse (message : String) : Reader α := do
  report (.atToken (← peek) message)
  throw .broken

def expectAny (accepts : Symbol → Bool) (message : String) : Reader Token := do
  match ← take? accepts with
  | some token => return token
  | none => refuse message

def expect (symbol : Symbol) (message : String) : Reader Token :=
  expectAny (· = symbol) message

def endLine (message : String) : Reader Unit := do
  unless ← accept .newline do
    unless ← atEnd do refuse message

def afterCommas (step : Reader α) : (limit : Nat) → Reader (List α)
  | 0 => throw .exhausted
  | limit + 1 => do
    if ← accept .comma then
      let first ← step
      return first :: (← afterCommas step limit)
    else return []

def upTo (done : Reader Bool) (step : Reader (List α)) : (limit : Nat) → Reader (List α)
  | 0 => throw .exhausted
  | limit + 1 => do
    if ← done then return []
    else
      let first ← step
      return first ++ (← upTo done step limit)

/-- The tokens from the next place on where a statement may begin: behind a line feed, or in front of a
word that opens a statement. The first token has already been skipped. -/
def settle (skipped : Token) : List Token → Option (List Token)
  | [] => none
  | token :: rest =>
    if token.symbol = .endOfText || skipped.symbol = .newline || token.symbol.opensStatement then
      some (token :: rest)
    else settle token rest

def skipBroken : List Token → Option (List Token)
  | [] => none
  | token :: rest => if token.symbol = .endOfText then some (token :: rest) else settle token rest

/-- A step that gives nothing if it is broken, and goes on with the next statement. -/
def recovering (step : Reader (List α)) : Reader (List α) := fun position =>
  match step position with
  | .error .broken position =>
    match skipBroken position.rest with
    | some rest => .ok [] { position with rest := rest }
    | none => .error .exhausted { position with rest := [] }
  | result => result

end Reader

end Cfpl.Program
