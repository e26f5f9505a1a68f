import Cfpl.Decimal
import Cfpl.Integer
import Cfpl.Json
import Cfpl.Symbol
import Cfpl.Text

/-! The values that a program computes with, their kinds, and the three ways to show a value: joined to
other text, written as output, and named in a trace. -/

namespace Cfpl

inductive Kind where
  | integer
  | float
  | character
  | boolean
  | string
  | absent
  deriving DecidableEq, Repr, Inhabited

namespace Kind

def all : List Kind := [.integer, .float, .character, .boolean, .string, .absent]

def name : Kind → String
  | integer => "Integer"
  | float => "Float"
  | character => "Character"
  | boolean => "Boolean"
  | string => "String"
  | absent => "Absent"

def label : Kind → String
  | integer => "INTEGER"
  | float => "FLOAT"
  | character => "CHARACTER"
  | boolean => "BOOLEAN"
  | string => "STRING"
  | absent => "ABSENT"

def ofLabel? (text : String) : Option Kind :=
  all.find? fun kind => kind.label == text

theorem ofLabel?_label (kind : Kind) : ofLabel? kind.label = some kind := by
  cases kind <;> decide

def ofDataType? : Symbol → Option Kind
  | .intType => some integer
  | .floatType => some float
  | .charType => some character
  | .boolType => some boolean
  | .stringType => some string
  | _ => none

theorem isSome_ofDataType? (symbol : Symbol) :
    (ofDataType? symbol).isSome = symbol.isDataType := by
  cases symbol <;> rfl

end Kind

/-- A value. Integers of a program lie in the 32-bit range; those of a document are kept as they are
until an operation makes a new one. The value that stands for no value may carry a document's note,
which nothing but writing it back looks at. -/
inductive Value where
  | integer (n : Int)
  | float (x : Float)
  | character (c : Char)
  | boolean (truth : Bool)
  | string (text : String)
  | absent (note : Json)
  deriving Inhabited

namespace Value

def kind : Value → Kind
  | integer _ => .integer
  | float _ => .float
  | character _ => .character
  | boolean _ => .boolean
  | string _ => .string
  | absent _ => .absent

def none : Value := .absent .null

/-- What a variable of the given type holds before anything is assigned to it. A text has no such
value. -/
def initial? : Symbol → Option Value
  | .intType => some (.integer 0)
  | .charType => some (.character ' ')
  | .boolType => some (.boolean false)
  | .floatType => some (.float 0.0)
  | _ => Option.none

theorem kind_of_initial? {type : Symbol} {value : Value} (found : initial? type = some value) :
    Kind.ofDataType? type = some value.kind := by
  cases type <;> cases found <;> rfl

def holds : Value → Bool
  | absent _ => false
  | boolean truth => truth
  | _ => true

def text : Value → String
  | integer n => toString n
  | float x => Decimal.displayLayout.write x
  | character c => .singleton c
  | boolean truth => if truth then "true" else "false"
  | string text => text
  | absent _ => "nil"

def withoutZeroFraction (text : List Char) : List Char :=
  if ['.', '0'].isSuffixOf text then text.dropLast.dropLast else text

def output : Value → String
  | float x => .ofList (withoutZeroFraction (Decimal.displayLayout.write x).toList)
  | value => value.text

def described : Value → String
  | integer n => "Integer(" ++ toString n ++ ")"
  | float x => "Float(" ++ Decimal.documentLayout.write x ++ ")"
  | character c => "Character(" ++ Text.quoted (.singleton c) ++ ")"
  | boolean truth => "Boolean(" ++ (if truth then "True" else "False") ++ ")"
  | string text => "String(" ++ Text.quoted text ++ ")"
  | absent _ => "Absent"

/-- Equality as programs test it: values of one kind that are alike. The absent value equals nothing,
and doubles are compared as numbers. -/
def same : Value → Value → Bool
  | integer m, integer n => m == n
  | float x, float y => x == y
  | character c, character d => c == d
  | boolean p, boolean q => p == q
  | string s, string t => s == t
  | _, _ => false

end Value

end Cfpl
