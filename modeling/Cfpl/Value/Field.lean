import Cfpl.Decimal
import Cfpl.Text
import Cfpl.Value.Basic

/-! Input lines and their fields. A line is cut at its commas, and each field is read as a value of the
kind that its variable holds, or failing that as the value that it looks like. -/

namespace Cfpl

inductive FieldError where
  | notInteger (text : String)
  | outOfRange (text : String)
  | tooManyDigits (count : Nat)
  | notFloat (text : String)
  | notCharacter (text : String)
  | notBoolean (text : String)
  deriving DecidableEq, Repr

/-- The most digits that are converted into a whole number, those without weight included. -/
def Field.digitLimit : Nat := 4300

namespace FieldError

def message : FieldError → String
  | notInteger text => "cannot parse Integer from " ++ Text.quoted text
  | outOfRange text => text ++ " is out of range for Integer"
  | tooManyDigits count => "Exceeds the limit (" ++ toString Field.digitLimit ++
    " digits) for integer string conversion: value has " ++ toString count ++
    " digits; use sys.set_int_max_str_digits() to increase the limit"
  | notFloat text => "cannot parse Float from " ++ Text.quoted text
  | notCharacter text => Text.quoted text ++ " is not a single character"
  | notBoolean text => Text.quoted text ++ " is neither TRUE nor FALSE"

end FieldError

namespace Field

/-- A line without characters is one empty field; of any other line the empty fields at its end are
dropped. -/
def split (line : String) : List String :=
  let fields := Text.split ',' line.toList
  let kept := if line.isEmpty then fields else (fields.reverse.dropWhile List.isEmpty).reverse
  kept.map String.ofList

def signedDigits? (text : List Char) : Option Int :=
  let (sign, digits) := match text with
    | '-' :: digits => ((-1 : Int), digits)
    | '+' :: digits => (1, digits)
    | digits => (1, digits)
  if !digits.isEmpty && digits.all Char.isDigit then some (sign * Decimal.ofDigits digits) else none

def withoutSign (text : List Char) : List Char := text.dropWhile fun c => c == '+' || c == '-'

/-- A whole number of 32 bits. More than ten digits behind the zeros in front are out of range without being
converted; the zeros are converted with the others, and count for the limit. -/
def integer? (text : String) : Except FieldError Int :=
  match signedDigits? text.toList with
  | some n =>
    let digits := withoutSign text.toList
    if 10 < (digits.dropWhile (· == '0')).length then .error (.outOfRange text)
    else if digitLimit < digits.length then .error (.tooManyDigits digits.length)
    else if Integer.InRange n then .ok n
    else .error (.outOfRange text)
  | none => .error (.notInteger text)

def character? (text : String) : Option Char :=
  match text.toList with
  | [c] => some c
  | _ => none

def truth? (text : List Char) : Option Bool :=
  if Text.occurs "TRUE".toList text then some true
  else if Text.occurs "FALSE".toList text then some false
  else none

def read (kind : Kind) (text : String) : Except FieldError Value :=
  match kind with
  | .integer => (integer? text).map .integer
  | .float => match Decimal.read? text with
    | some x => .ok (.float x)
    | none => .error (.notFloat text)
  | .character => match character? text with
    | some c => .ok (.character c)
    | none => .error (.notCharacter text)
  | .boolean => match truth? text.toList with
    | some truth => .ok (.boolean truth)
    | none => .error (.notBoolean text)
  | .string | .absent => .ok (.string text)

/-- The value that a field looks like: a single character, a truth value in letters of any case, a
number, or else the text itself. -/
def guess (text : String) : Value :=
  match character? text with
  | some c => .character c
  | none =>
    match truth? (text.toList.map Char.toUpper) with
    | some truth => .boolean truth
    | none =>
      match integer? text, Decimal.read? text with
      | .ok n, _ => .integer n
      | .error _, some x => .float x
      | .error _, none => .string text

end Field

end Cfpl
