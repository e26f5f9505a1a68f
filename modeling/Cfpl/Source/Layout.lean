import Cfpl.Source.Basic
import Mathlib.Data.List.DropRight
import Mathlib.Data.String.Basic

/-! Program texts and their tokens. A layout says of the text alone which of its characters spell a token and what the
others are, and goes by the order of the text and not by how it is cut. Some texts are spelled from tokens, or from
literals that stand for a text of their own. -/

namespace Cfpl

namespace Token

def content (token : Token) : Symbol × String × Option Value := (token.symbol, token.lexeme, token.literal)

/-- The lexemes of a row of tokens, with one blank between each and the next. -/
def spaced (tokens : List Token) : String := " ".intercalate (tokens.map lexeme)

end Token

namespace Source

def contents (source : String) : List (Symbol × String × Option Value) := (tokens source).map Token.content

/-- A character in brackets, whatever it is, or a text between quotes that is taken as it is. -/
inductive Quotation where
  | bracketed (c : Char)
  | plain (text : String) (unquoted : '"' ∉ text.toList) (unbracketed : text.toList.head? ≠ some '[')
    (noWord : text ∉ ["TRUE", "FALSE", "#"])

namespace Quotation

def content : Quotation → List Char
  | bracketed c => ['[', c, ']']
  | plain text _ _ _ => text.toList

def text : Quotation → String
  | bracketed c => .singleton c
  | plain text _ _ _ => text

def spelling (quotation : Quotation) : String := "\"" ++ .ofList quotation.content ++ "\""

def joined (quotations : List Quotation) : String := .join (quotations.map text)

@[simp] theorem joined_cons (first : Quotation) (others : List Quotation) :
    joined (first :: others) = first.text ++ joined others :=
  String.join_cons

def outputLine (blanks : Nat) (quotations : List Quotation) : String :=
  "OUTPUT:" ++ .ofList (.replicate blanks ' ') ++ " & ".intercalate (quotations.map spelling) ++ "\n"

end Quotation

def Flaw.leavesToken : Flaw → Bool
  | missingQuote | notOneCharacter _ | number _ => true
  | unexpectedCharacter | unterminatedString | unterminatedEscape | unterminatedCharacter => false

/-- Flaws of a literal that is cut off by the end of the text. -/
def Flaw.cutsOff : Flaw → Bool
  | unterminatedString | unterminatedEscape | unterminatedCharacter => true
  | _ => false

def lastLine (text : List Char) : List Char := text.rtakeWhile (· != '\n')

/-- A comment begins with two slashes, or with a star that no word character stands before on its line. -/
inductive OpensComment (before : List Char) : List Char → Prop
  | slashes (remark : List Char) : OpensComment before ('/' :: '/' :: remark)
  | star {remark : List Char} (alone : ∀ c ∈ lastLine before, ¬isWordChar c) :
    OpensComment before ('*' :: remark)

/-- A literal that nothing closes. -/
inductive Unclosed : List Char → Flaw → Prop
  | string {content : List Char} (plain : content.head? ≠ some '[') (unclosed : '"' ∉ content) :
    Unclosed ('"' :: content) .unterminatedString
  | escape {content : List Char} (unclosed : ']' ∉ content) :
    Unclosed ('"' :: '[' :: content) .unterminatedEscape
  | character {content : List Char} (unclosed : '\'' ∉ content) :
    Unclosed ('\'' :: content) .unterminatedCharacter

/-- These tokens and reports are those of the text behind `before`, in which the symbol of the last token
is `last`. -/
inductive Layout : (before : List Char) → (last : Option Symbol) → (text : List Char) →
    List Token → List Diagnostic → Prop
  | nothing (before : List Char) (last : Option Symbol) : Layout before last [] [] []
  | token {before spelling text : List Char} {last : Option Symbol} {symbol : Symbol}
    {literal : Option Value} {flaws : List Flaw} {tokens : List Token} {reports : List Diagnostic}
    (spelled : spelling ≠ []) (inText : symbol ≠ .endOfText)
    (endsLine : symbol = .newline → spelling = ['\n'] ∧ last ≠ none ∧ last ≠ some .newline)
    (own : ∀ flaw ∈ flaws, flaw.leavesToken)
    (behind : Layout (before ++ spelling) (some symbol) text tokens reports) :
    Layout before last (spelling ++ text)
      (⟨symbol, .ofList spelling, literal, (1 + lineFeeds (before ++ spelling.dropLast) : Nat)⟩ :: tokens)
      (flaws.map (fun flaw => .onLine (1 + lineFeeds (before ++ spelling) : Nat) flaw.message) ++ reports)
  | blank {before text : List Char} {last : Option Symbol} {c : Char} {tokens : List Token}
    {reports : List Diagnostic} (white : c = ' ' ∨ c = '\r' ∨ c = '\t')
    (behind : Layout (before ++ [c]) last text tokens reports) :
    Layout before last (c :: text) tokens reports
  | lineFeed {before text : List Char} {last : Option Symbol} {tokens : List Token}
    {reports : List Diagnostic} (endsNothing : last = none ∨ last = some .newline)
    (behind : Layout (before ++ ['\n']) last text tokens reports) :
    Layout before last ('\n' :: text) tokens reports
  | comment {before remark text : List Char} {last : Option Symbol} {tokens : List Token}
    {reports : List Diagnostic} (opens : OpensComment before remark) (oneLine : '\n' ∉ remark)
    (whole : text = [] ∨ text.head? = some '\n')
    (behind : Layout (before ++ remark) last text tokens reports) :
    Layout before last (remark ++ text) tokens reports
  | unexpected {before text : List Char} {last : Option Symbol} {c : Char} {tokens : List Token}
    {reports : List Diagnostic} (behind : Layout (before ++ [c]) last text tokens reports) :
    Layout before last (c :: text) tokens
      (.onLine (1 + lineFeeds before : Nat) Flaw.unexpectedCharacter.message :: reports)
  | unclosed {before text : List Char} {last : Option Symbol} {flaw : Flaw} (cutOff : Unclosed text flaw) :
    Layout before last text [] [.onLine (1 + lineFeeds (before ++ text) : Nat) flaw.message]

end Source

end Cfpl
