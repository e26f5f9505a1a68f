import Cfpl.Program.Statement

/-! What holds of each step that looks at one token, and is kept when steps are put one behind the other,
holds of reading expressions and of what stands between them on a line. -/

namespace Cfpl.Program

/-- A property of steps that is kept by the ways to put them together. A step that is looking for a line feed
need not have it. -/
structure Reader.Closed (given : Token → Prop) where
  Holds {α : Type} (step : Reader α) : Prop
  pure {α : Type} (a : α) : Holds (Pure.pure a : Reader α)
  raise {α : Type} (trouble : Trouble) : Holds (throw trouble : Reader α)
  refuse {α : Type} (message : String) : Holds (Reader.refuse message : Reader α)
  report {token : Token} (known : given token) (message : String) :
    Holds (Reader.report (.atToken token message))
  bind {α β : Type} {step : Reader α} {next : α → Reader β} (first : Holds step)
    (second : ∀ a, Holds (next a)) : Holds (step >>= next)
  take? {α : Type} {accepts : Symbol → Bool} {next : Option Token → Reader α}
    (inLine : accepts .newline = false) (none : Holds (next none))
    (some_ : ∀ token, given token → Holds (next (some token))) : Holds (Reader.take? accepts >>= next)

namespace Reader.Closed

variable {α : Type} {given : Token → Prop} (closed : Closed given)

theorem accept {symbol : Symbol} (inLine : symbol ≠ .newline) : closed.Holds (accept symbol) :=
  closed.take? (decide_eq_false inLine.symm) (closed.pure _) fun _ _ => closed.pure _

theorem expectAny {accepts : Symbol → Bool} (inLine : accepts .newline = false) (message : String) :
    closed.Holds (expectAny accepts message) :=
  closed.take? inLine (closed.refuse message) fun token _ => closed.pure token

theorem expect {symbol : Symbol} (inLine : symbol ≠ .newline) (message : String) :
    closed.Holds (expect symbol message) :=
  closed.expectAny (decide_eq_false inLine.symm) message

theorem afterCommas {step : Reader α} (steps : closed.Holds step) (limit : Nat) :
    closed.Holds (afterCommas step limit) := by
  induction limit with
  | zero => exact closed.raise .exhausted
  | succ limit ih =>
    apply closed.bind (closed.accept (by decide))
    intro more
    cases more with
    | false => exact closed.pure []
    | true => exact closed.bind steps fun first => closed.bind ih fun others => closed.pure (first :: others)

theorem leftGrouped (make : Node → Token → Node → Node) {accepts : Symbol → Bool}
    (inLine : accepts .newline = false) {operand : Reader Node} (operands : closed.Holds operand) (limit : Nat)
    (left : Node) : closed.Holds (leftGrouped make accepts operand limit left) := by
  induction limit generalizing left with
  | zero => exact closed.raise .exhausted
  | succ limit ih =>
    exact closed.take? inLine (closed.pure left) fun operator _ => closed.bind operands fun right => ih _

theorem level (make : Node → Token → Node → Node) {accepts : Symbol → Bool}
    (inLine : accepts .newline = false) (limit : Nat) {operand : Reader Node} (operands : closed.Holds operand) :
    closed.Holds (level make accepts limit operand) :=
  closed.bind operands fun left => closed.leftGrouped make inLine operands limit left

section Operands

variable {inner : Reader Node} (inside : closed.Holds inner)
include inside

theorem primary : closed.Holds (primary inner) := by
  apply closed.bind (closed.expectAny rfl _)
  intro token
  split
  · exact closed.pure _
  · exact closed.pure _
  · exact closed.pure _
  · exact closed.bind inside fun body => closed.bind (closed.expect (by decide) _) fun _ => closed.pure _
  · exact closed.pure _

theorem operand (limit : Nat) : closed.Holds (operand inner limit) := by
  induction limit with
  | zero => exact closed.raise .exhausted
  | succ limit ih =>
    exact closed.take? rfl (closed.primary inside) fun operator _ => closed.bind ih fun right => closed.pure _

theorem disjunction (limit : Nat) : closed.Holds (disjunction inner limit) := by
  have products : closed.Holds (product inner limit) :=
    closed.level .binary rfl limit (closed.operand inside limit)
  have sums : closed.Holds (sum inner limit) := closed.level .binary rfl limit products
  have comparisons : closed.Holds (comparison inner limit) := closed.level .binary rfl limit sums
  have equalities : closed.Holds (equality inner limit) := closed.level .binary rfl limit comparisons
  have conjunctions : closed.Holds (conjunction inner limit) := closed.level .logical rfl limit equalities
  exact closed.level .logical rfl limit conjunctions

end Operands

theorem expression (limit : Nat) : closed.Holds (expression limit) := by
  induction limit with
  | zero => exact closed.raise .exhausted
  | succ limit ih =>
    apply closed.bind (closed.disjunction ih (limit + 1))
    intro target
    refine closed.take? rfl (closed.pure target) fun equals known => closed.bind ih fun value => ?_
    split
    · exact closed.pure _
    · exact closed.bind (closed.report known _) fun _ => closed.pure target

theorem variableItem {expression : Reader Node} (expressions : closed.Holds expression) :
    closed.Holds (variableItem expression) := by
  apply closed.bind (closed.expect (by decide) _)
  intro name
  apply closed.bind (closed.accept (by decide))
  intro initialized
  cases initialized with
  | true => exact closed.bind expressions fun value => closed.pure _
  | false => exact closed.pure _

end Reader.Closed

end Cfpl.Program
