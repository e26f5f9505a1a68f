import Cfpl.Token

/-! The operators of the language applied to values. Two integers give an integer of the 32-bit range;
an integer and a double are computed as doubles. -/

namespace Cfpl

inductive Number where
  | integer (n : Int)
  | float (x : Float)

def Value.number? : Value → Option Number
  | .integer n => some (.integer n)
  | .float x => some (.float x)
  | _ => Option.none

namespace Operation

def widen : Number → Except Halt Float
  | .integer n => match Integer.toFloat? n with
    | some x => .ok x
    | none => .error (.misuse .integerTooLarge)
  | .float x => .ok x

def onDoubles (operation : Float → Float → Value) (a b : Number) : Except Halt Value :=
  return operation (← widen a) (← widen b)

theorem widen_cases (number : Number) :
    (∃ x, widen number = .ok x) ∨ widen number = .error (.misuse .integerTooLarge) := by
  unfold widen
  split
  · split
    · exact .inl ⟨_, rfl⟩
    · exact .inr rfl
  · exact .inl ⟨_, rfl⟩

theorem onDoubles_cases (operation : Float → Float → Value) (m n : Number) :
    (∃ value, onDoubles operation m n = .ok value) ∨
      onDoubles operation m n = .error (.misuse .integerTooLarge) := by
  unfold onDoubles
  rcases widen_cases m with ⟨x, widened⟩ | failed
  · rw [widened]
    rcases widen_cases n with ⟨y, widened⟩ | failed
    · rw [widened]
      exact .inl ⟨_, rfl⟩
    · rw [failed]
      exact .inr rfl
  · rw [failed]
    exact .inr rfl

def compare (test : Float → Float → Bool) : Number → Number → Except Halt Value :=
  onDoubles fun x y => .boolean (test x y)

/-- An operation on two numbers. The one on integers has no value for a divisor of zero. -/
def arithmetic (operator : Token) (onIntegers : Int → Int → Option Int)
    (onFloats : Float → Float → Float) : Number → Number → Except Halt Value
  | .integer m, .integer n => match onIntegers m n with
    | some result => .ok (.integer (Integer.wrap result))
    | none => .error (.fault operator .divisionByZero)
  | a, b => onDoubles (fun x y => .float (onFloats x y)) a b

def numbersOnly (operator : Token) (operation : Number → Number → Except Halt Value) (a b : Value) :
    Except Halt Value :=
  match a.number?, b.number? with
  | some m, some n => operation m n
  | _, _ => .error (.fault operator .numberOperand)

def remainder (operator : Token) : Value → Value → Except Halt Value
  | .integer m, .integer n => match Integer.remainder? m n with
    | some result => .ok (.integer (Integer.wrap result))
    | none => .error (.fault operator .divisionByZero)
  | _, _ => .error (.fault operator .remainderOperands)

def sum (operator : Token) (a b : Value) : Except Halt Value :=
  match a.number?, b.number? with
  | some m, some n => arithmetic operator (fun m n => some (m + n)) (fun x y => x + y) m n
  | _, _ => match a, b with
    | .string s, .string t => .ok (.string (s ++ t))
    | _, _ => .error (.fault operator .sumOperands)

def binary (operator : Token) (a b : Value) : Except Halt Value :=
  match operator.symbol with
  | .equalEqual => .ok (.boolean (a.same b))
  | .bangEqual => .ok (.boolean (!a.same b))
  | .ampersand => .ok (.string (a.text ++ b.text))
  | .percent => remainder operator a b
  | .greater => numbersOnly operator (compare fun x y => x > y) a b
  | .greaterEqual => numbersOnly operator (compare fun x y => x ≥ y) a b
  | .less => numbersOnly operator (compare fun x y => x < y) a b
  | .lessEqual => numbersOnly operator (compare fun x y => x ≤ y) a b
  | .plus => sum operator a b
  | .minus => numbersOnly operator
    (arithmetic operator (fun m n => some (m - n)) fun x y => x - y) a b
  | .star => numbersOnly operator
    (arithmetic operator (fun m n => some (m * n)) fun x y => x * y) a b
  | .slash => numbersOnly operator
    (arithmetic operator Integer.quotient? fun x y => x / y) a b
  | _ => .error (.fault operator (.unknownOperator operator.lexeme))

def unary (operator : Token) (operand : Value) : Except Halt Value :=
  match operator.symbol with
  | .notWord | .bang => .ok (.boolean (!operand.holds))
  | .minus => match operand with
    | .integer n => .ok (.integer (Integer.wrap (-n)))
    | .float x => .ok (.float (-x))
    | _ => .error (.fault operator .numberOperand)
  | _ => .error (.fault operator (.unaryOperator operator.lexeme))

end Operation

end Cfpl
