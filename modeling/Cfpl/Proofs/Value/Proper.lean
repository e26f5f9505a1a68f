import Cfpl.Operation
import Cfpl.Proofs.Integer.Double
import Cfpl.Value.Field

/-! Proper values: an integer lies in the 32-bit range, and a character is one character of text. The
operators make proper values of proper ones, or find a fault; an input field is read as a proper value. -/

namespace Cfpl

def Value.Proper : Value → Prop
  | .integer n => Integer.InRange n
  | .character c => (Value.character c).text.length = 1
  | _ => True

def Number.Proper : Number → Prop
  | .integer n => Integer.InRange n
  | .float _ => True

private theorem Value.proper_number? {value : Value} {number : Number} (proper : value.Proper)
    (found : value.number? = some number) : number.Proper := by
  cases value with
  | integer n =>
    cases found
    exact proper
  | float x =>
    cases found
    trivial
  | _ => cases found

def Halt.IsFault : Halt → Prop
  | .fault _ _ => True
  | .misuse _ | .unfinished => False

private theorem Value.proper_wrap (n : Int) : (Value.integer (Integer.wrap n)).Proper := Integer.inRange_wrap n

theorem Value.proper_character (c : Char) : (Value.character c).Proper := String.length_singleton

theorem Value.proper_initial? {type : Symbol} {value : Value} (found : initial? type = some value) :
    value.Proper := by
  cases type <;> cases found
  · exact (by decide : Integer.InRange 0)
  · exact proper_character ' '
  · trivial
  · trivial

namespace Operation

variable {operator : Token} {a b : Value}

def Proper : Except Halt Value → Prop
  | .ok value => value.Proper
  | .error halt => halt.IsFault

private theorem exists_widen {number : Number} (proper : number.Proper) : ∃ x, widen number = .ok x := by
  cases number with
  | integer n =>
    obtain ⟨x, found⟩ := Option.isSome_iff_exists.mp (Integer.isSome_toFloat? proper)
    exact ⟨x, by simp only [widen, found]⟩
  | float x => exact ⟨x, rfl⟩

section Numbers

variable {m n : Number} (properM : m.Proper) (properN : n.Proper)
include properM properN

private theorem exists_onDoubles (operation : Float → Float → Value) :
    ∃ x y, onDoubles operation m n = .ok (operation x y) := by
  obtain ⟨x, foundM⟩ := exists_widen properM
  obtain ⟨y, foundN⟩ := exists_widen properN
  refine ⟨x, y, ?_⟩
  rw [onDoubles, foundM, foundN]
  rfl

private theorem proper_compare (test : Float → Float → Bool) : Proper (compare test m n) := by
  obtain ⟨x, y, computed⟩ := exists_onDoubles properM properN fun x y => .boolean (test x y)
  rw [compare, computed]
  trivial

private theorem proper_arithmetic (onIntegers : Int → Int → Option Int) (onFloats : Float → Float → Float) :
    Proper (arithmetic operator onIntegers onFloats m n) := by
  unfold arithmetic
  split
  · split
    · exact Value.proper_wrap _
    · trivial
  · obtain ⟨x, y, computed⟩ := exists_onDoubles properM properN fun x y => .float (onFloats x y)
    rw [computed]
    trivial

end Numbers

section Values

variable (properA : a.Proper) (properB : b.Proper)
include properA properB

private theorem proper_numbersOnly {operation : Number → Number → Except Halt Value}
    (proper : ∀ {m n : Number}, m.Proper → n.Proper → Proper (operation m n)) :
    Proper (numbersOnly operator operation a b) := by
  unfold numbersOnly
  split
  · next foundA foundB => exact proper (Value.proper_number? properA foundA) (Value.proper_number? properB foundB)
  · trivial

private theorem proper_sum : Proper (sum operator a b) := by
  unfold sum
  split
  · next foundA foundB =>
    exact proper_arithmetic (Value.proper_number? properA foundA) (Value.proper_number? properB foundB) _ _
  · split <;> trivial

omit properA properB in
private theorem proper_remainder : Proper (remainder operator a b) := by
  unfold remainder
  split
  · split
    · exact Value.proper_wrap _
    · trivial
  · trivial

theorem proper_binary : Proper (binary operator a b) := by
  unfold binary
  split
  · trivial
  · trivial
  · trivial
  · exact proper_remainder
  · exact proper_numbersOnly properA properB fun m n => proper_compare m n _
  · exact proper_numbersOnly properA properB fun m n => proper_compare m n _
  · exact proper_numbersOnly properA properB fun m n => proper_compare m n _
  · exact proper_numbersOnly properA properB fun m n => proper_compare m n _
  · exact proper_sum properA properB
  · exact proper_numbersOnly properA properB fun m n => proper_arithmetic m n _ _
  · exact proper_numbersOnly properA properB fun m n => proper_arithmetic m n _ _
  · exact proper_numbersOnly properA properB fun m n => proper_arithmetic m n _ _
  · trivial

end Values

theorem proper_unary : Proper (unary operator a) := by
  unfold unary
  split
  · trivial
  · trivial
  · split
    · exact Value.proper_wrap _
    · trivial
    · trivial
  · trivial

end Operation

namespace Field

theorem inRange_of_integer? {text : String} {n : Int} (found : integer? text = .ok n) :
    Integer.InRange n := by
  unfold integer? at found
  simp only at found
  split at found
  · split at found
    · cases found
    · split at found
      · cases found
      · split at found
        next within =>
          cases found
          exact within
        · cases found
  · cases found

theorem proper_read {kind : Kind} {text : String} {value : Value} (found : read kind text = .ok value) :
    value.Proper ∧ (kind = value.kind ∨ kind = .absent) := by
  unfold read at found
  split at found
  · cases wanted : integer? text with
    | error error =>
      rw [wanted] at found
      cases found
    | ok n =>
      rw [wanted] at found
      cases found
      exact ⟨inRange_of_integer? wanted, .inl rfl⟩
  · split at found
    · cases found
      exact ⟨trivial, .inl rfl⟩
    · cases found
  · split at found
    · cases found
      exact ⟨Value.proper_character _, .inl rfl⟩
    · cases found
  · split at found
    · cases found
      exact ⟨trivial, .inl rfl⟩
    · cases found
  · cases found
    exact ⟨trivial, .inl rfl⟩
  · cases found
    exact ⟨trivial, .inr rfl⟩

theorem proper_guess (text : String) : (guess text).Proper := by
  unfold guess
  split
  · exact Value.proper_character _
  · split
    · trivial
    · split
      · next n _ found => exact inRange_of_integer? found
      · trivial
      · trivial

end Field

end Cfpl
