import Cfpl.Json
import Cfpl.Value.Field

/-! Reading JSON text. Besides the numbers of the standard the words `NaN`, `Infinity` and `-Infinity`
are read. Of two fields with one name the later value counts. A whole number may not have more digits than
are ever converted. -/

namespace Cfpl.Json

/-- Why a text is not read: it is no JSON, or a number in it has so many digits. -/
inductive Trouble where
  | malformed
  | tooManyDigits (count : Nat)
  deriving DecidableEq, Repr

def orMalformed {α : Type} : Option α → Except Trouble α
  | some a => .ok a
  | none => .error .malformed

def isSpace (c : Char) : Bool :=
  c == ' ' || c == '\t' || c == '\n' || c == '\r'

def skipSpace (text : List Char) : List Char := text.dropWhile isSpace

def hexValue? (c : Char) : Option Nat :=
  if '0' ≤ c ∧ c ≤ '9' then some (c.toNat - '0'.toNat)
  else if 'a' ≤ c ∧ c ≤ 'f' then some (c.toNat - 'a'.toNat + 10)
  else if 'A' ≤ c ∧ c ≤ 'F' then some (c.toNat - 'A'.toNat + 10)
  else none

def escapedUnit? : Char → Option Nat
  | '"' => some '"'.toNat
  | '\\' => some '\\'.toNat
  | '/' => some '/'.toNat
  | 'b' => some 8
  | 'f' => some 12
  | 'n' => some 10
  | 'r' => some 13
  | 't' => some 9
  | _ => none

def units? : List Char → Option (List Nat × List Char)
  | [] => none
  | '"' :: rest => some ([], rest)
  | '\\' :: 'u' :: a :: b :: c :: d :: rest => do
    let value := ((← hexValue? a) * 16 + (← hexValue? b)) * 256 +
      ((← hexValue? c) * 16 + (← hexValue? d))
    let (units, rest) ← units? rest
    some (value :: units, rest)
  | '\\' :: c :: rest => do
    let value ← escapedUnit? c
    let (units, rest) ← units? rest
    some (value :: units, rest)
  | c :: rest =>
    if c.toNat < 0x20 || c == '\\' then none
    else do
      let (units, rest) ← units? rest
      some (c.toNat :: units, rest)

def isHighSurrogate (unit : Nat) : Bool := 0xd800 ≤ unit && unit < 0xdc00

def isLowSurrogate (unit : Nat) : Bool := 0xdc00 ≤ unit && unit < 0xe000

/-- The characters of code units: a pair of surrogates is one character, a lone one is replaced. -/
def joinUnits : List Nat → List Char
  | [] => []
  | [unit] => [if isHighSurrogate unit || isLowSurrogate unit then '\ufffd' else Char.ofNat unit]
  | high :: low :: rest =>
    if isHighSurrogate high && isLowSurrogate low then
      Char.ofNat (0x10000 + (high - 0xd800) * 0x400 + (low - 0xdc00)) :: joinUnits rest
    else
      (if isHighSurrogate high || isLowSurrogate high then '\ufffd' else Char.ofNat high) ::
        joinUnits (low :: rest)

def readText (rest : List Char) : Except Trouble (String × List Char) :=
  (orMalformed (units? rest)).map fun (units, rest) => (.ofList (joinUnits units), rest)

def exponentPart (text : List Char) : Option (Int × List Char) :=
  match text with
  | mark :: rest =>
    let (sign, unsigned) := match rest with
      | '-' :: unsigned => (-1, unsigned)
      | '+' :: unsigned => (1, unsigned)
      | unsigned => ((1 : Int), unsigned)
    let (digits, rest) := unsigned.span Char.isDigit
    if (mark == 'e' || mark == 'E') && !digits.isEmpty then
      some (sign * Decimal.ofDigits digits, rest)
    else none
  | [] => none

def fractionPart (text : List Char) : Option (List Char × List Char) :=
  match text with
  | '.' :: rest =>
    let (digits, rest) := rest.span Char.isDigit
    if digits.isEmpty then none else some (digits, rest)
  | _ => none

def wholePart (text : List Char) : List Char × List Char :=
  match text with
  | '0' :: rest => (['0'], rest)
  | _ => text.span Char.isDigit

def wholeNumber (negative : Bool) (digits : List Char) : Except Trouble Json :=
  let value : Int := Decimal.ofDigits digits
  if Field.digitLimit < digits.length then .error (.tooManyDigits digits.length)
  else .ok (.int (if negative then -value else value))

def pointedNumber (negative : Bool) (d : Decimal) : Json :=
  .float (if negative then -d.toFloat else d.toFloat)

def number? (negative : Bool) (text : List Char) : Option (Except Trouble (Json × List Char)) :=
  let (whole, rest) := wholePart text
  if whole.isEmpty then none
  else
    let fraction := fractionPart rest
    let rest := (fraction.map (·.2)).getD rest
    let exponent := exponentPart rest
    let rest := (exponent.map (·.2)).getD rest
    if fraction.isNone && exponent.isNone then
      some ((wholeNumber negative whole).map fun value => (value, rest))
    else
      let d := Decimal.ofParts whole ((fraction.map (·.1)).getD []) ((exponent.map (·.1)).getD 0)
      some (.ok (pointedNumber negative d, rest))

def afterWord? (word : String) (text : List Char) : Option (List Char) :=
  if word.toList.isPrefixOf text then some (text.drop word.length) else none

def words : List (String × Json) :=
  [("null", .null), ("true", .bool true), ("false", .bool false),
    ("NaN", .float Decimal.notANumber), ("Infinity", .float Decimal.infinity),
    ("-Infinity", .float (-Decimal.infinity))]

def word? (text : List Char) : Option (Json × List Char) :=
  words.findSome? fun (word, value) => (afterWord? word text).map fun rest => (value, rest)

def setField (name : String) (value : Json) : List (String × Json) → List (String × Json)
  | [] => [(name, value)]
  | (other, old) :: rest =>
    if other = name then (name, value) :: rest else (other, old) :: setField name value rest

def readListed {α : Type} (readOne : List Char → Except Trouble (α × List Char)) (closing : Char) :
    (size : Nat) → List Char → Except Trouble (List α × List Char)
  | 0, _ => .error .malformed
  | size + 1, text => do
    let (one, rest) ← readOne (skipSpace text)
    match skipSpace rest with
    | [] => .error .malformed
    | mark :: rest =>
      if mark = closing then return ([one], rest)
      else if mark = ',' then
        let (others, rest) ← readListed readOne closing size rest
        return (one :: others, rest)
      else .error .malformed

def readField (readValue : List Char → Except Trouble (Json × List Char)) :
    List Char → Except Trouble ((String × Json) × List Char)
  | '"' :: rest => do
    let (name, rest) ← readText rest
    match skipSpace rest with
    | ':' :: rest => do
      let (value, rest) ← readValue (skipSpace rest)
      return ((name, value), rest)
    | _ => .error .malformed
  | _ => .error .malformed

/-- A value and the text behind it. Each level of nesting and each item takes a character, so a `depth`
beyond the length of the text is enough. -/
def readValue : (depth : Nat) → List Char → Except Trouble (Json × List Char)
  | 0, _ => .error .malformed
  | depth + 1, text =>
    match text with
    | '"' :: rest => (readText rest).map fun (text, rest) => (.string text, rest)
    | '[' :: rest =>
      match skipSpace rest with
      | ']' :: rest => .ok (.array [], rest)
      | _ => (readListed (readValue depth) ']' depth rest).map fun (items, rest) => (.array items, rest)
    | '\x7b' :: rest =>
      match skipSpace rest with
      | '\x7d' :: rest => .ok (.object [], rest)
      | _ => (readListed (readField (readValue depth)) '\x7d' depth rest).map fun (fields, rest) =>
        (.object (fields.foldl (fun kept field => setField field.1 field.2 kept) []), rest)
    | '-' :: rest => (number? true rest).getD (orMalformed (word? text))
    | _ => (number? false text).getD (orMalformed (word? text))

def read (text : String) : Except Trouble Json := do
  let chars := skipSpace text.toList
  let (value, rest) ← readValue (chars.length + 1) chars
  if (skipSpace rest).isEmpty then return value else throw .malformed

def parse? (text : String) : Option Json := (read text).toOption

theorem read_of_parse? {text : String} {value : Json} (found : parse? text = some value) :
    read text = .ok value := by
  unfold parse? at found
  cases known : read text with
  | ok other =>
    rw [known] at found
    cases found
    rfl
  | error trouble =>
    rw [known] at found
    cases found

end Cfpl.Json
