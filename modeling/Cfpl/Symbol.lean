/-! The terminal symbols of CFPL, the names they carry in documents, and the reserved words that
spell some of them. Names are distinct, so a name read back gives the symbol it was written for. -/

namespace Cfpl

inductive Symbol where
  | leftParen
  | rightParen
  | leftBrace
  | rightBrace
  | comma
  | semicolon
  | minus
  | plus
  | slash
  | star
  | percent
  | ampersand
  | bang
  | bangEqual
  | equal
  | equalEqual
  | greater
  | greaterEqual
  | less
  | lessEqual
  | increment
  | decrement
  | identifier
  | number
  | text
  | character
  | lineBreak
  | varWord
  | asWord
  | outputWord
  | inputWord
  | ifWord
  | elseWord
  | whileWord
  | forWord
  | andWord
  | orWord
  | notWord
  | trueWord
  | falseWord
  | intType
  | charType
  | boolType
  | floatType
  | stringType
  | start
  | stop
  | newline
  | endOfText
  deriving DecidableEq, Repr, Inhabited

namespace Symbol

def all : List Symbol :=
  [.leftParen, .rightParen, .leftBrace, .rightBrace, .comma, .semicolon, .minus, .plus, .slash,
    .star, .percent, .ampersand, .bang, .bangEqual, .equal, .equalEqual, .greater, .greaterEqual,
    .less, .lessEqual, .increment, .decrement, .identifier, .number, .text, .character, .lineBreak,
    .varWord, .asWord, .outputWord, .inputWord, .ifWord, .elseWord, .whileWord, .forWord, .andWord,
    .orWord, .notWord, .trueWord, .falseWord, .intType, .charType, .boolType, .floatType,
    .stringType, .start, .stop, .newline, .endOfText]

def name : Symbol → String
  | leftParen => "LEFT_PAREN"
  | rightParen => "RIGHT_PAREN"
  | leftBrace => "LEFT_BRACE"
  | rightBrace => "RIGHT_BRACE"
  | comma => "COMMA"
  | semicolon => "SEMICOLON"
  | minus => "MINUS"
  | plus => "PLUS"
  | slash => "SLASH"
  | star => "STAR"
  | percent => "MODULO"
  | ampersand => "AMPERSAND"
  | bang => "BANG"
  | bangEqual => "BANG_EQUAL"
  | equal => "EQUAL"
  | equalEqual => "EQUAL_EQUAL"
  | greater => "GREATER"
  | greaterEqual => "GREATER_EQUAL"
  | less => "LESS"
  | lessEqual => "LESS_EQUAL"
  | increment => "INCREMENT"
  | decrement => "DECREMENT"
  | identifier => "IDENTIFIER"
  | number => "NUMBER"
  | text => "STRING_LIT"
  | character => "CHAR_LIT"
  | lineBreak => "NEXT_LINE"
  | varWord => "VAR"
  | asWord => "AS"
  | outputWord => "PRINT"
  | inputWord => "INPUT"
  | ifWord => "IF"
  | elseWord => "ELSE"
  | whileWord => "WHILE"
  | forWord => "FOR"
  | andWord => "AND"
  | orWord => "OR"
  | notWord => "NOT"
  | trueWord => "TRUE"
  | falseWord => "FALSE"
  | intType => "INT"
  | charType => "CHAR"
  | boolType => "BOOL"
  | floatType => "FLOAT"
  | stringType => "STRING"
  | start => "START"
  | stop => "STOP"
  | newline => "NEWLINE"
  | endOfText => "EOF"

def ofName? (text : String) : Option Symbol :=
  all.find? fun symbol => symbol.name == text

theorem ofName?_name (symbol : Symbol) : ofName? symbol.name = some symbol := by
  cases symbol <;> decide

/-- The reserved words, as they are spelled in a program. `OUTPUT:` and `INPUT:` carry their colon. -/
def reservedWords : List (String × Symbol) :=
  [("INT", intType), ("CHAR", charType), ("BOOL", boolType), ("FLOAT", floatType),
    ("STRING", stringType), ("START", start), ("STOP", stop), ("VAR", varWord),
    ("OUTPUT:", outputWord), ("INPUT:", inputWord), ("AS", asWord), ("TRUE", trueWord),
    ("FALSE", falseWord), ("AND", andWord), ("OR", orWord), ("NOT", notWord), ("IF", ifWord),
    ("ELSE", elseWord), ("WHILE", whileWord), ("FOR", forWord)]

/-- A word is reserved in exactly its listed spelling; every other word names something. -/
def ofWord (word : String) : Symbol :=
  (reservedWords.lookup word).getD identifier

theorem ofWord_mem (word : String) :
    ofWord word = identifier ∨ ∃ entry ∈ reservedWords, entry.2 = ofWord word := by
  unfold ofWord
  cases found : reservedWords.lookup word with
  | none => exact .inl rfl
  | some symbol =>
    obtain ⟨before, after, split, _⟩ := List.lookup_eq_some_iff.mp found
    exact .inr ⟨(word, symbol), by rw [split]; simp, rfl⟩

def isDataType : Symbol → Bool
  | intType | charType | boolType | floatType | stringType => true
  | _ => false

def opensStatement : Symbol → Bool
  | varWord | outputWord | inputWord | ifWord | whileWord | forWord | start => true
  | _ => false

end Symbol

end Cfpl
