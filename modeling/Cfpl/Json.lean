import Cfpl.Decimal
import Cfpl.Text

/-! JSON values, how they are written over several lines with each level two spaces further in, and the one-line form in
which a message shows a value. Whole numbers and numbers with a fraction or an exponent are kept apart, and an object
keeps its fields in the order in which they were written, each name once. -/

namespace Cfpl

inductive Json where
  | null
  | bool (value : Bool)
  | int (value : Int)
  | float (value : Float)
  | string (value : String)
  | array (items : List Json)
  | object (fields : List (String × Json))
  deriving Inhabited

namespace Json

def escaped (c : Char) : List Char :=
  if c = '"' || c = '\\' then ['\\', c]
  else if c = '\n' then ['\\', 'n']
  else if c = '\r' then ['\\', 'r']
  else if c = '\t' then ['\\', 't']
  else if c = '\x08' then ['\\', 'b']
  else if c = '\x0c' then ['\\', 'f']
  else if c.toNat < 0x20 then '\\' :: 'u' :: Text.hex 4 c.toNat
  else [c]

def writeText (text : String) : String :=
  .ofList ('"' :: (text.toList.flatMap escaped ++ ['"']))

def newLine (depth : Nat) : String :=
  .ofList ('\n' :: List.replicate (2 * depth) ' ')

def bracketed (depth : Nat) (opening closing : String) (lines : List String) : String :=
  if lines.isEmpty then opening ++ closing
  else
    let inside := ("," ++ newLine (depth + 1)).intercalate lines
    opening ++ newLine (depth + 1) ++ inside ++ newLine depth ++ closing

mutual

def write (depth : Nat) : Json → String
  | .null => "null"
  | .bool value => if value then "true" else "false"
  | .int value => toString value
  | .float value => Decimal.documentLayout.write value
  | .string value => writeText value
  | .array items => bracketed depth "[" "]" (writeItems depth items)
  | .object fields => bracketed depth "\x7b" "\x7d" (writeFields depth fields)

def writeItems (depth : Nat) : List Json → List String
  | [] => []
  | item :: rest => write (depth + 1) item :: writeItems depth rest

def writeFields (depth : Nat) : List (String × Json) → List String
  | [] => []
  | (name, value) :: rest =>
    (writeText name ++ ": " ++ write (depth + 1) value) :: writeFields depth rest

end

def indented (value : Json) : String := write 0 value

mutual

def describeInner : Json → String
  | .null => "None"
  | .bool value => if value then "True" else "False"
  | .int value => toString value
  | .float value => Decimal.documentLayout.write value
  | .string value => Text.quoted value
  | .array items => "[" ++ ", ".intercalate (describeItems items) ++ "]"
  | .object fields => "\x7b" ++ ", ".intercalate (describeFields fields) ++ "\x7d"

def describeItems : List Json → List String
  | [] => []
  | item :: rest => describeInner item :: describeItems rest

def describeFields : List (String × Json) → List String
  | [] => []
  | (name, value) :: rest =>
    (Text.quoted name ++ ": " ++ describeInner value) :: describeFields rest

end

/-- A value as a message shows it; a text that is the whole value stands there without quotes. -/
def describe : Json → String
  | .string value => value
  | value => describeInner value

end Json

end Cfpl
