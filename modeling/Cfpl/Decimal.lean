import Cfpl.Text

/-! Doubles and their decimal numerals. A numeral is read as the double nearest to it. A double is written with the
fewest digits that are read back as it, in the layout of a document or of what a program shows. -/

namespace Cfpl

/-- The number `coefficient * 10 ^ exponent`. -/
structure Decimal where
  coefficient : Nat
  exponent : Int
  deriving DecidableEq, Repr, Inhabited

namespace Decimal

/-- Moves zeros from the end of a coefficient into the exponent, at most `limit` of them. -/
def moveZeros : (limit : Nat) → Nat → Int → Decimal
  | 0, coefficient, exponent => ⟨coefficient, exponent⟩
  | limit + 1, coefficient, exponent =>
    if coefficient % 10 = 0 then moveZeros limit (coefficient / 10) (exponent + 1)
    else ⟨coefficient, exponent⟩

/-- The numeral of the same number whose coefficient does not end in a zero. A number has fewer decimal
than binary digits, so no more zeros can stand at its end. -/
def normalize (d : Decimal) : Decimal :=
  if d.coefficient = 0 then ⟨0, 0⟩ else moveZeros d.coefficient.log2 d.coefficient d.exponent

/-- The nearest double, the even one of two that are equally near; infinity beyond the range. Zeros at
the end of a numeral make no difference. -/
def toFloat (d : Decimal) : Float :=
  let d := d.normalize
  Float.ofScientific d.coefficient (d.exponent < 0) d.exponent.natAbs

def ofDigits (digits : List Char) : Nat :=
  digits.foldl (fun n c => 10 * n + (c.toNat - '0'.toNat)) 0

def ofParts (whole fraction : List Char) (power : Int) : Decimal :=
  ⟨ofDigits (whole ++ fraction), power - fraction.length⟩

structure Fraction where
  numerator : Nat
  denominator : Nat

def magnitude (x : Float) : Fraction :=
  let bits := x.toBits.toNat
  let stored := bits % (1 <<< 52)
  let scale := (bits >>> 52) % (1 <<< 11)
  let significand := if scale = 0 then stored else stored + (1 <<< 52)
  let power := max scale 1
  if 1075 ≤ power then ⟨significand <<< (power - 1075), 1⟩
  else ⟨significand, 1 <<< (1075 - power)⟩

/-- The exponent of the first digit of a double's magnitude. No positive double is below `10 ^ -324`,
so moving the point by 324 places leaves a whole number to count the digits of. -/
def leadingExponent (value : Fraction) : Int :=
  (Nat.toDigits 10 (value.numerator * Nat.pow 10 324 / value.denominator)).length - 325

/-- The two multiples of `10 ^ exponent` on either side of a value, the nearer one first. -/
def neighbours (value : Fraction) (exponent : Int) : List Decimal :=
  let numerator := value.numerator * Nat.pow 10 (-exponent).toNat
  let denominator := value.denominator * Nat.pow 10 exponent.toNat
  let below := numerator / denominator
  let twice := 2 * (numerator % denominator)
  let belowFirst := twice < denominator || (twice == denominator && below % 2 == 0)
  if belowFirst then [⟨below, exponent⟩, ⟨below + 1, exponent⟩]
  else [⟨below + 1, exponent⟩, ⟨below, exponent⟩]

def exact (value : Fraction) : Decimal :=
  let places := value.denominator.log2
  ⟨value.numerator * Nat.pow 5 places, -places⟩

/-- Seventeen digits are enough for every double; the value written out in full stands behind them. -/
def shortest (x : Float) : Decimal :=
  let value := magnitude x
  let leading := leadingExponent value
  let grids := (List.range 17).map fun (digits : Nat) => neighbours value (leading - digits)
  (grids.flatten.find? fun d => d.toFloat.toBits == x.abs.toBits).getD (exact value)

structure Layout where
  /-- The exponents of the first digit that are written with a plain point, lower end included. -/
  plainFrom : Int
  plainBelow : Int
  /-- Whether a mantissa of one digit is followed by a point and a zero. -/
  fullMantissa : Bool
  mark : Char
  /-- Whether an exponent that is not negative has a sign, and how many digits it has at least. -/
  plusSign : Bool
  exponentWidth : Nat
  infinity : String
  notANumber : String

def significantDigits (d : Decimal) : List Char := Nat.toDigits 10 d.normalize.coefficient

def scientificExponent (d : Decimal) : Int :=
  (significantDigits d).length - 1 + d.normalize.exponent

private def zeros (count : Nat) : List Char := List.replicate count '0'

def plain (digits : List Char) (exponent : Int) : List Char :=
  if exponent < 0 then '0' :: '.' :: (zeros (-exponent - 1).toNat ++ digits)
  else
    let size := exponent.toNat + 1
    let whole := digits.take size ++ zeros (size - digits.length)
    let fraction := digits.drop size
    whole ++ '.' :: (if fraction.isEmpty then ['0'] else fraction)

namespace Layout

def exponentText (layout : Layout) (exponent : Int) : List Char :=
  let digits := Nat.toDigits 10 exponent.natAbs
  let sign := if exponent < 0 then ['-'] else if layout.plusSign then ['+'] else []
  sign ++ zeros (layout.exponentWidth - digits.length) ++ digits

def scientific (layout : Layout) (digits : List Char) (exponent : Int) : List Char :=
  let rest := digits.drop 1
  let mantissa := digits.take 1 ++
    (if !rest.isEmpty then '.' :: rest else if layout.fullMantissa then ['.', '0'] else [])
  mantissa ++ layout.mark :: layout.exponentText exponent

def positive (layout : Layout) (d : Decimal) : List Char :=
  let digits := significantDigits d
  let exponent := scientificExponent d
  if layout.plainFrom ≤ exponent && exponent < layout.plainBelow then plain digits exponent
  else layout.scientific digits exponent

def write (layout : Layout) (x : Float) : String :=
  if x.isNaN then layout.notANumber
  else
    let sign := if x.toBits.toNat >>> 63 = 1 then "-" else ""
    if x.isInf then sign ++ layout.infinity
    else if x == 0.0 then sign ++ "0.0"
    else sign ++ .ofList (layout.positive (shortest x))

end Layout

def documentLayout : Layout :=
  { plainFrom := -4, plainBelow := 16, fullMantissa := false, mark := 'e', plusSign := true,
    exponentWidth := 2, infinity := "inf", notANumber := "nan" }

def displayLayout : Layout :=
  { plainFrom := -3, plainBelow := 7, fullMantissa := true, mark := 'E', plusSign := false,
    exponentWidth := 1, infinity := "Infinity", notANumber := "NaN" }

def infinity : Float := Float.ofBits 0x7ff0000000000000

def notANumber : Float := Float.ofBits 0x7ff8000000000000

def exponent? : List Char → Option Int
  | [] => some 0
  | mark :: rest =>
    let (negative, digits) := match rest with
      | '-' :: digits => (true, digits)
      | '+' :: digits => (false, digits)
      | digits => (false, digits)
    if (mark == 'e' || mark == 'E') && !digits.isEmpty && digits.all Char.isDigit then
      some (if negative then -(ofDigits digits : Int) else ofDigits digits)
    else none

def unsigned? (text : List Char) : Option Float :=
  let word := String.ofList (text.map Char.toLower)
  if word == "inf" || word == "infinity" then some infinity
  else if word == "nan" then some notANumber
  else
    let (whole, rest) := text.span Char.isDigit
    let (fraction, rest) := match rest with
      | '.' :: rest => rest.span Char.isDigit
      | rest => ([], rest)
    if whole.isEmpty && fraction.isEmpty then none
    else (exponent? rest).map fun power => (ofParts whole fraction power).toFloat

def signed? : List Char → Option Float
  | '-' :: text => (unsigned? text).map Float.neg
  | '+' :: text => unsigned? text
  | text => unsigned? text

/-- The text without the underscores that join digits; none if one stands elsewhere. -/
def withoutJoints? (before : Bool) : List Char → Option (List Char)
  | [] => some []
  | '_' :: rest =>
    if before && (rest.head?.any Char.isDigit) then withoutJoints? false rest else none
  | c :: rest => (withoutJoints? c.isDigit rest).map (c :: ·)

def plainChar? (c : Char) : Option Char :=
  if Text.isBlank c then some ' '
  else if c.toNat < 0x80 then some c
  else (Text.digitValue? c).map Nat.digitChar

def trimBlanks (text : List Char) : List Char :=
  ((text.dropWhile Text.isBlank).reverse.dropWhile Text.isBlank).reverse

def read? (text : String) : Option Float := do
  let plain ← (trimBlanks text.toList).mapM plainChar?
  signed? (← withoutJoints? false plain)

end Decimal

end Cfpl
