import Cfpl.Decimal
import Mathlib.Algebra.Order.Field.Power
import Mathlib.Data.Rat.Cast.Order

/-! What numerals are as texts, and the numbers that numerals and doubles stand for. A numeral may also be spelled anew
in the notation with an exponent, from nothing but its text. -/

namespace Cfpl.Decimal

def Digits (text : List Char) : Prop := ∀ c ∈ text, c.isDigit

/-- The end of a numeral, and the power of ten that it stands for. -/
inductive Ending : List Char → Int → Prop
  | nothing : Ending [] 0
  | upward {mark : Char} {sign digits : List Char} (marked : mark ∈ ['e', 'E']) (signed : sign ∈ [[], ['+']])
    (some_ : digits ≠ []) (all : Digits digits) : Ending (mark :: (sign ++ digits)) (ofDigits digits)
  | downward {mark : Char} {digits : List Char} (marked : mark ∈ ['e', 'E']) (some_ : digits ≠ [])
    (all : Digits digits) : Ending (mark :: '-' :: digits) (-ofDigits digits)

/-- A text that spells a number: digits, a point with more of them if need be, and an exponent if need be. -/
inductive Numeral : List Char → Decimal → Prop
  | whole {whole ending : List Char} {power : Int} (some_ : whole ≠ []) (all : Digits whole)
    (ends : Ending ending power) : Numeral (whole ++ ending) (ofParts whole [] power)
  | pointed {whole fraction ending : List Char} {power : Int} (some_ : whole ≠ []) (all : Digits whole)
    (places : Digits fraction) (ends : Ending ending power) :
    Numeral (whole ++ '.' :: (fraction ++ ending)) (ofParts whole fraction power)

/-- A text that spells a whole number: a sign if need be, and these digits. -/
inductive Whole : (text digits : List Char) → Int → Prop
  | unsigned {digits : List Char} (some_ : digits ≠ []) (all : Digits digits) :
    Whole digits digits (ofDigits digits)
  | plus {digits : List Char} (some_ : digits ≠ []) (all : Digits digits) :
    Whole ('+' :: digits) digits (ofDigits digits)
  | minus {digits : List Char} (some_ : digits ≠ []) (all : Digits digits) :
    Whole ('-' :: digits) digits (-ofDigits digits)

def value (d : Decimal) : ℚ := d.coefficient * 10 ^ d.exponent

/-- The text spells this number, behind a minus if need be. -/
inductive Denotes : List Char → ℚ → Prop
  | unsigned {text : List Char} {d : Decimal} (numeral : Numeral text d) : Denotes text d.value
  | minus {text : List Char} {d : Decimal} (numeral : Numeral text d) : Denotes ('-' :: text) (-d.value)

def Fraction.value (f : Fraction) : ℚ := f.numerator / f.denominator

def held : Float.Model.UnpackedFloat → ℚ
  | .finite .positive mantissa exponent _ => mantissa * 2 ^ exponent
  | .finite .negative mantissa exponent _ => -(mantissa * 2 ^ exponent)
  | _ => 0

def number (x : Float) : ℚ := held x.toModel.unpack

def strip (digits : List Char) : List Char :=
  ((digits.dropWhile (· == '0')).reverse.dropWhile (· == '0')).reverse

/-- The text is split at its exponent and at its point, and the new exponent is counted from the lengths of what
is found there. None if no digit other than zero is left to stand in front of the point. -/
def respelled? (text : List Char) : Option (List Char) :=
  let (mantissa, ending) := text.span (· != 'e')
  let (whole, behind) := mantissa.span (· != '.')
  let digits := whole ++ behind.drop 1
  let leading := digits.length - (digits.dropWhile (· == '0')).length
  match strip digits with
  | [] => none
  | first :: rest =>
    (exponent? ending).map fun power =>
      let exponent : Int := whole.length + power - leading - 1
      first :: '.' :: ((if rest.isEmpty then ['0'] else rest) ++ 'E' :: (toString exponent).toList)

/-- A point with at least one digit on either side. -/
inductive Positional : List Char → Prop
  | pointed {whole fraction : List Char} (some_ : whole ≠ []) (all : Digits whole) (someBehind : fraction ≠ [])
    (allBehind : Digits fraction) : Positional (whole ++ '.' :: fraction)

/-- One digit other than zero, a point, digits of which the last is not zero unless there is no other, and the
exponent with neither a plus nor zeros in front of it. -/
inductive Scientific : List Char → Int → Prop
  | marked {first : Char} {fraction : List Char} (digit : first.isDigit) (nonzero : first ≠ '0')
    (some_ : fraction ≠ []) (all : Digits fraction) (last : fraction = ['0'] ∨ fraction.getLast? ≠ some '0')
    (exponent : Int) : Scientific (first :: '.' :: (fraction ++ 'E' :: (toString exponent).toList)) exponent

end Cfpl.Decimal
