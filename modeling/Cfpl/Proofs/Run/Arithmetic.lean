import Cfpl.Node.Arithmetic
import Cfpl.Proofs.Run.Gives

/-! Expressions of whole numbers are computed in 32 bits of two's complement: what the operators give on whole
numbers without bound, brought back into the range after each of them, is what they give on words. An
expression fails only by a division by zero, and then by the first one. -/

namespace Cfpl

namespace Integer

private theorem toInt_ofInt (n : Int) : (BitVec.ofInt 32 n).toInt = wrap n := BitVec.toInt_ofInt n

private theorem toInt_of_inRange {n : Int} (within : InRange n) : (BitVec.ofInt 32 n).toInt = n :=
  (toInt_ofInt n).trans (wrap_of_inRange within)

private theorem wrap_toInt (w : BitVec 32) : wrap w.toInt = w.toInt := BitVec.toInt_bmod_cancel w

private theorem toInt_eq_zero (w : BitVec 32) : w.toInt = 0 ↔ w = 0 := by
  rw [← BitVec.toInt_inj]
  rfl

private theorem toInt_quotient (v w : BitVec 32) :
    (v.sdiv w).toInt = if v.toInt = -2147483648 ∧ w.toInt = -1 then -2147483648 else v.toInt.tdiv w.toInt := by
  by_cases leaves : v = BitVec.intMin 32 ∧ w = -1
  · obtain ⟨rfl, rfl⟩ := leaves
    decide
  · have apart : v ≠ BitVec.intMin 32 ∨ w ≠ -1 := Classical.not_and_iff_not_or_not.mp leaves
    rw [BitVec.toInt_sdiv_of_ne_or_ne v w apart, if_neg]
    intro both
    exact leaves ⟨BitVec.toInt_inj.mp both.1, BitVec.toInt_inj.mp both.2⟩

private theorem quotient_mul_add_remainder (v w : BitVec 32) : v.sdiv w * w + v.srem w = v := by
  rw [← BitVec.toInt_inj, BitVec.toInt_add, BitVec.toInt_mul, BitVec.toInt_sdiv, BitVec.toInt_srem,
    Int.bmod_mul_bmod, Int.bmod_add_bmod, Int.mul_comm, Int.mul_tdiv_add_tmod, BitVec.toInt_bmod_cancel]

end Integer

namespace Operation

variable {operator : Token}

private theorem unary_word (sign : operator.symbol = .minus) (w : BitVec 32) :
    unary operator (.integer w.toInt) = .ok (.integer (-w).toInt) := by
  unfold unary
  rw [sign, BitVec.toInt_neg]
  rfl

private theorem binary_words (sign : operator.symbol ∈ Node.arithmeticOperators) (v w : BitVec 32) :
    binary operator (.integer v.toInt) (.integer w.toInt) =
      if operator.symbol.divides ∧ w = 0 then .error (.fault operator .divisionByZero)
      else .ok (.integer (operator.symbol.combine v w).toInt) := by
  have signs : operator.symbol = .plus ∨ operator.symbol = .minus ∨ operator.symbol = .star ∨
      operator.symbol = .slash ∨ operator.symbol = .percent := by
    simpa [Node.arithmeticOperators] using sign
  have nonzero (apart : w ≠ 0) : w.toInt ≠ 0 := fun none => apart ((Integer.toInt_eq_zero w).mp none)
  unfold binary
  rcases signs with plus | minus | star | slash | percent
  · rw [plus, if_neg (fun zero => Bool.false_ne_true zero.1), Symbol.combine, BitVec.toInt_add]
    rfl
  · rw [minus, if_neg (fun zero => Bool.false_ne_true zero.1), Symbol.combine, BitVec.toInt_sub]
    rfl
  · rw [star, if_neg (fun zero => Bool.false_ne_true zero.1), Symbol.combine, BitVec.toInt_mul]
    rfl
  · rw [slash, Symbol.combine, BitVec.toInt_sdiv]
    by_cases zero : w = 0
    · rw [if_pos ⟨rfl, zero⟩, zero]
      rfl
    · have divided : Integer.quotient? v.toInt w.toInt = some (v.toInt.tdiv w.toInt) := if_neg (nonzero zero)
      rw [if_neg fun both => zero both.2]
      simp only [numbersOnly, Value.number?, arithmetic, divided]
      rfl
  · rw [percent, Symbol.combine]
    by_cases zero : w = 0
    · rw [if_pos ⟨rfl, zero⟩, zero]
      rfl
    · have left : Integer.remainder? v.toInt w.toInt = some (v.srem w).toInt := by
        rw [BitVec.toInt_srem]
        exact if_neg (nonzero zero)
      rw [if_neg fun both => zero both.2]
      simp only [remainder, left, Integer.wrap_toInt]

end Operation

namespace Node

private theorem zeroDivision?_binary (scopes : Scopes) (left : Node) (operator : Token) (right : Node) :
    (binary left operator right).zeroDivision? scopes =
      (left.zeroDivision? scopes).or ((right.zeroDivision? scopes).or
        (if operator.symbol.divides ∧ right.word scopes = 0 then some operator else none)) := by
  have own : ((if operator.symbol.divides then [(operator, right)] else []).find?
        fun division => division.2.word scopes = 0).map (·.1) =
      if operator.symbol.divides ∧ right.word scopes = 0 then some operator else none := by
    by_cases divides : operator.symbol.divides <;> by_cases zero : right.word scopes = 0 <;>
      simp [divides, zero]
  unfold zeroDivision?
  rw [divisions, List.find?_append, List.find?_append, Option.map_or, Option.map_or, own]

end Node

namespace Run

variable (settings : Settings) {state : State}

private theorem evaluate_arithmetic {node : Node} (arithmetic : node.Arithmetic state.scopes) :
    evaluate settings node state = match node.zeroDivision? state.scopes with
      | some operator => .error (.fault operator .divisionByZero) state
      | none => .ok (.integer (node.word state.scopes).toInt) state := by
  induction arithmetic with
  | @literal n within =>
    show _ = EStateM.Result.ok (Value.integer (BitVec.ofInt 32 n).toInt) state
    rw [Integer.toInt_of_inRange within]
    rfl
  | @reference name n found within =>
    show lookup name state = EStateM.Result.ok (Value.integer (Node.word state.scopes (.reference name)).toInt) state
    unfold lookup Node.word
    rw [found]
    show _ = EStateM.Result.ok (Value.integer (BitVec.ofInt 32 n).toInt) state
    rw [Integer.toInt_of_inRange within]
  | grouping _ ih => exact ih
  | @negation operator right sign _ ih =>
    rw [evaluate, run_bind, ih]
    show _ = match right.zeroDivision? state.scopes with
      | some operator => _
      | none => _
    cases right.zeroDivision? state.scopes with
    | some first => rfl
    | none =>
      dsimp only
      rw [Operation.unary_word sign]
      rfl
  | @binary operator left right sign _ _ ihLeft ihRight =>
    rw [evaluate, run_bind, ihLeft, Node.zeroDivision?_binary]
    cases left.zeroDivision? state.scopes with
    | some first => rfl
    | none =>
      dsimp only
      rw [run_bind, ihRight, Option.none_or]
      cases right.zeroDivision? state.scopes with
      | some first => rfl
      | none =>
        dsimp only
        rw [Operation.binary_words sign, Option.none_or]
        by_cases zero : operator.symbol.divides ∧ right.word state.scopes = 0
        · rw [if_pos zero, if_pos zero]
          rfl
        · rw [if_neg zero, if_neg zero]
          rfl

private theorem evaluate_words {left right : Node} {v w : BitVec 32} {operator : Token} {symbol : Symbol}
    (isSymbol : operator.symbol = symbol) (sign : symbol ∈ Node.arithmeticOperators)
    (some_ : symbol.divides → w ≠ 0) (first : evaluate settings left state = .ok (.integer v.toInt) state)
    (second : evaluate settings right state = .ok (.integer w.toInt) state) :
    evaluate settings (.binary left operator right) state =
      .ok (.integer (symbol.combine v w).toInt) state := by
  subst isSymbol
  rw [evaluate, run_bind, first]
  dsimp only
  rw [run_bind, second]
  dsimp only
  rw [Operation.binary_words sign, if_neg fun zero => some_ zero.1 zero.2]
  rfl

/-- Expressions of whole numbers are computed in words of 32 bits. The first division by zero, from left to
right, is a fault of its operator, and there is no other fault. A quotient has lost its fraction, and only
that of the lowest number by minus one leaves the range; together with the remainder, which has the sign of
the dividend, it gives back the dividend. -/
theorem integers_are_words (settings : Settings) (state : State) :
    (∀ node : Node, node.Arithmetic state.scopes →
      evaluate settings node state = match node.zeroDivision? state.scopes with
        | some operator => .error (.fault operator .divisionByZero) state
        | none => .ok (.integer (node.word state.scopes).toInt) state) ∧
    (∀ (a b : Node) (m n : Int), Integer.InRange m → Integer.InRange n → n ≠ 0 →
      evaluate settings a state = .ok (.integer m) state →
      evaluate settings b state = .ok (.integer n) state →
      ∀ slash percent star plus : Token, slash.symbol = .slash → percent.symbol = .percent →
        star.symbol = .star → plus.symbol = .plus →
        evaluate settings (.binary a slash b) state =
          .ok (.integer (if m = -2147483648 ∧ n = -1 then -2147483648 else m.tdiv n)) state ∧
        evaluate settings (.binary a percent b) state = .ok (.integer (m.tmod n)) state ∧
        evaluate settings (.binary (.binary (.binary a slash b) star b) plus (.binary a percent b)) state =
          .ok (.integer m) state) ∧
    Fault.divisionByZero.message = "Division by zero." := by
  refine ⟨fun node arithmetic => evaluate_arithmetic settings arithmetic, ?_, rfl⟩
  intro a b m n inM inN some_ first second slash percent star plus isSlash isPercent isStar isPlus
  obtain ⟨v, rfl⟩ : ∃ v : BitVec 32, v.toInt = m := ⟨_, Integer.toInt_of_inRange inM⟩
  obtain ⟨w, rfl⟩ : ∃ w : BitVec 32, w.toInt = n := ⟨_, Integer.toInt_of_inRange inN⟩
  have apart : w ≠ 0 := fun zero => some_ ((Integer.toInt_eq_zero w).mpr zero)
  have quotient := evaluate_words settings isSlash (by decide) (fun _ => apart) first second
  have remainder := evaluate_words settings isPercent (by decide) (fun _ => apart) first second
  have product := evaluate_words settings isStar (by decide) (fun _ => apart) quotient second
  have sum := evaluate_words settings isPlus (by decide) Bool.noConfusion product remainder
  refine ⟨?_, ?_, ?_⟩
  · rw [← Integer.toInt_quotient]
    exact quotient
  · rw [← BitVec.toInt_srem]
    exact remainder
  · rw [← Integer.quotient_mul_add_remainder v w]
    exact sum

def spelled (symbol : Symbol) (lexeme : String) : Token := ⟨symbol, lexeme, none, 1⟩

def number (n : Int) : Node := .literal (some (.integer n))

def lowest : State :=
  ⟨.single (Frame.empty.define "a" (.integer (-2147483648))), [], #[], #[]⟩

def lowestByMinusOne : Node :=
  .grouping (.binary (.reference (spelled .identifier "a")) (spelled .slash "/")
    (.unary (spelled .minus "-") (number 1)))

def wrappedDivisor : Node :=
  .binary (.binary (number 7) (spelled .percent "%")
      (.grouping (.binary (number 65536) (spelled .star "*") (number 65536))))
    (spelled .plus "+") (.binary (number 1) (spelled .slash "/") (number 0))

theorem lowest_and_wrapped_divisor :
    lowestByMinusOne.Arithmetic lowest.scopes ∧ wrappedDivisor.Arithmetic lowest.scopes ∧
      evaluate ⟨0, 10⟩ lowestByMinusOne lowest = .ok (.integer (-2147483648)) lowest ∧
      evaluate ⟨0, 10⟩ wrappedDivisor lowest =
        .error (.fault (spelled .percent "%") .divisionByZero) lowest ∧
      evaluate ⟨0, 10⟩ (.binary (number (-7)) (spelled .percent "%") (number 2)) lowest =
        .ok (.integer (-1)) lowest := by
  have one (n : Int) (within : Integer.InRange n) : (number n).Arithmetic lowest.scopes := .literal within
  have byMinusOne : lowestByMinusOne.Arithmetic lowest.scopes :=
    .grouping (.binary (by decide) (.reference rfl (by decide)) (.negation rfl (one 1 (by decide))))
  have wrapped : wrappedDivisor.Arithmetic lowest.scopes :=
    .binary (by decide)
      (.binary (by decide) (one 7 (by decide))
        (.grouping (.binary (by decide) (one 65536 (by decide)) (one 65536 (by decide)))))
      (.binary (by decide) (one 1 (by decide)) (one 0 (by decide)))
  obtain ⟨computes, divides, _⟩ := integers_are_words ⟨0, 10⟩ lowest
  refine ⟨byMinusOne, wrapped, computes _ byMinusOne, computes _ wrapped, ?_⟩
  exact (divides (number (-7)) (number 2) (-7) 2 (by decide) (by decide) (by decide) rfl rfl (spelled .slash "/")
    (spelled .percent "%") (spelled .star "*") (spelled .plus "+") rfl rfl rfl rfl).2.1

end Run

end Cfpl
