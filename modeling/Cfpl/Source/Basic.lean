import Cfpl.Token
import Cfpl.Value.Field

/-! Program text cut into pieces, and the tokens and reports that are read off them. A piece is a run of characters that
becomes at most one token, which is spelled by the whole piece; the pieces of a text in their order are the text. What
a piece is may depend on what stands before it: a star is an operator where a letter, a digit or an underscore stands
earlier on its line of the text and opens a comment elsewhere, and a line feed ends a line of tokens only where there
is one. -/

namespace Cfpl.Source

inductive Flaw where
  | unexpectedCharacter
  | unterminatedString
  | unterminatedEscape
  | unterminatedCharacter
  | missingQuote
  | notOneCharacter (text : List Char)
  | number (error : FieldError)
  deriving DecidableEq, Repr

def Flaw.message : Flaw → String
  | unexpectedCharacter => "Unexpected character."
  | unterminatedString => "Unterminated string."
  | unterminatedEscape => "Unterminated escape code."
  | unterminatedCharacter => "Unterminated character."
  | missingQuote => "Expected '\"' after escape code."
  | notOneCharacter text => .ofList text ++ " is not a character"
  | number error => error.message

/-- What the text before a piece decides: the line it starts on, whether a word character stands on
that line before it, and whether the tokens before it are at the start of a line. -/
structure Context where
  line : Nat
  word : Bool
  lineStart : Bool
  deriving DecidableEq, Repr

namespace Context

def initial : Context := ⟨1, false, true⟩

end Context

/-- The characters that a piece takes after its first one, its token, and its flaws. -/
structure Cut where
  tail : List Char
  token : Option (Symbol × Option Value)
  flaws : List Flaw

namespace Cut

def symbol (tail : List Char) (symbol : Symbol) : Cut := ⟨tail, some (symbol, none), []⟩

def value (tail : List Char) (symbol : Symbol) (value : Value) : Cut :=
  ⟨tail, some (symbol, some value), []⟩

def blank (tail : List Char) : Cut := ⟨tail, none, []⟩

def flawed (tail : List Char) (flaw : Flaw) : Cut := ⟨tail, none, [flaw]⟩

end Cut

def isLetter (c : Char) : Bool := c.isAlpha || c == '_'

def isWordChar (c : Char) : Bool := isLetter c || c.isDigit

def paired (next : Char) (long short : Symbol) (rest : List Char) : Cut :=
  if rest.head? = some next then .symbol [next] long else .symbol [] short

def restOfLine (rest : List Char) : List Char := rest.takeWhile (· != '\n')

def quotedToken (content : List Char) : Symbol × Option Value :=
  if content = "TRUE".toList then (.trueWord, none)
  else if content = "FALSE".toList then (.falseWord, none)
  else if content = ['#'] then (.lineBreak, some (.character '\n'))
  else (.text, some (.string (.ofList content)))

def string (rest : List Char) : Cut :=
  let content := rest.takeWhile (· != '"')
  if (rest.drop content.length).isEmpty then .flawed rest .unterminatedString
  else ⟨content ++ ['"'], some (quotedToken content), []⟩

def oneCharacter (content : List Char) : List Flaw :=
  if content.length = 1 then [] else [.notOneCharacter content]

/-- A quoted text that begins with an opening bracket. It ends with the first closing bracket, or with
the one directly behind it, and a quote should follow. -/
def escape (rest : List Char) : Cut :=
  let body := rest.takeWhile (· != ']')
  let behind := rest.drop body.length
  match behind with
  | [] => .flawed rest .unterminatedEscape
  | bracket :: more =>
    let inside := if more.head? = some ']' then body ++ [bracket] else body
    let content := inside.drop 1
    let closed := (rest.drop (inside.length + 1)).head? = some '"'
    ⟨inside ++ ']' :: (if closed then ['"'] else []), some (.text, some (.string (.ofList content))),
      (if closed then [] else [.missingQuote]) ++ oneCharacter content⟩

def character (rest : List Char) : Cut :=
  let content := rest.takeWhile (· != '\'')
  if (rest.drop content.length).isEmpty then .flawed rest .unterminatedCharacter
  else ⟨content ++ ['\''], some (.character, some (.character (content.headD '\x00'))),
    oneCharacter content⟩

def fraction (rest : List Char) : List Char :=
  match rest with
  | '.' :: behind =>
    let digits := behind.takeWhile Char.isDigit
    if digits.isEmpty then [] else '.' :: digits
  | _ => []

/-- A number. One without a fraction must lie in the 32-bit range, and zero stands for one that does
not. -/
def number (first : Char) (rest : List Char) : Cut :=
  let digits := rest.takeWhile Char.isDigit
  let places := fraction (rest.drop digits.length)
  if places.isEmpty then
    match Field.integer? (.ofList (first :: digits)) with
    | .ok n => .value digits .number (.integer n)
    | .error error => ⟨digits, some (.number, some (.integer 0)), [.number error]⟩
  else
    .value (digits ++ places) .number
      (.float (Decimal.ofParts (first :: digits) (places.drop 1) 0).toFloat)

def word (first : Char) (rest : List Char) : Cut :=
  let letters := rest.takeWhile isWordChar
  let tail := letters ++ (if (rest.drop letters.length).head? = some ':' then [':'] else [])
  .symbol tail (.ofWord (.ofList (first :: tail)))

def cut (context : Context) (first : Char) (rest : List Char) : Cut :=
  match first with
  | '(' => .symbol [] .leftParen
  | ')' => .symbol [] .rightParen
  | '\x7b' => .symbol [] .leftBrace
  | '\x7d' => .symbol [] .rightBrace
  | ',' => .symbol [] .comma
  | ';' => .symbol [] .semicolon
  | '%' => .symbol [] .percent
  | '&' => .symbol [] .ampersand
  | '-' => paired '-' .decrement .minus rest
  | '+' => paired '+' .increment .plus rest
  | '*' => if context.word then .symbol [] .star else .blank (restOfLine rest)
  | '!' => paired '=' .bangEqual .bang rest
  | '=' => paired '=' .equalEqual .equal rest
  | '<' => if rest.head? = some '>' then .symbol ['>'] .bangEqual
    else paired '=' .lessEqual .less rest
  | '>' => paired '=' .greaterEqual .greater rest
  | '/' => if rest.head? = some '/' then .blank (restOfLine rest) else .symbol [] .slash
  | ' ' | '\r' | '\t' => .blank []
  | '\n' => if context.lineStart then .blank [] else .symbol [] .newline
  | '"' => if rest.head? = some '[' then escape rest else string rest
  | '#' => .value [] .lineBreak (.character '\n')
  | '\'' => character rest
  | c =>
    if c.isDigit then number c rest
    else if isLetter c then word c rest
    else .flawed [] .unexpectedCharacter

structure Piece where
  text : List Char
  line : Nat
  token : Option (Symbol × Option Value)
  flaws : List Flaw

def lineFeeds (text : List Char) : Nat := text.count '\n'

@[simp] theorem lineFeeds_append (front back : List Char) :
    lineFeeds (front ++ back) = lineFeeds front + lineFeeds back :=
  List.count_append

namespace Context

/-- Whether a word character stands on the last line of a text that continues a line. -/
def wordAfter (word : Bool) (text : List Char) : Bool :=
  text.foldl (fun word c => if c = '\n' then false else word || isWordChar c) word

def after (context : Context) (text : List Char) (token : Option (Symbol × Option Value)) : Context :=
  { line := context.line + lineFeeds text
    word := wordAfter context.word text
    lineStart := match token with
      | some (symbol, _) => symbol = .newline
      | none => context.lineStart }

end Context

def piecesFrom (context : Context) : List Char → List Piece
  | [] => []
  | first :: rest =>
    let found := cut context first rest
    let text := first :: found.tail
    ⟨text, context.line, found.token, found.flaws⟩ ::
      piecesFrom (context.after text found.token) (rest.drop found.tail.length)
  termination_by text => text.length
  decreasing_by simp only [List.length_drop, List.length_cons]; omega

def pieces (source : String) : List Piece := piecesFrom .initial source.toList

namespace Piece

def token? (piece : Piece) : Option Token :=
  piece.token.map fun (symbol, literal) =>
    ⟨symbol, .ofList piece.text, literal, piece.line + lineFeeds piece.text.dropLast⟩

def diagnostics (piece : Piece) : List Diagnostic :=
  piece.flaws.map fun flaw =>
    .onLine (piece.line + lineFeeds piece.text : Nat) flaw.message

end Piece

def endToken (source : String) : Token :=
  ⟨.endOfText, "", none, (1 + lineFeeds source.toList : Nat)⟩

def tokens (source : String) : List Token :=
  (pieces source).filterMap Piece.token? ++ [endToken source]

def diagnostics (source : String) : List Diagnostic :=
  (pieces source).flatMap Piece.diagnostics

end Cfpl.Source
