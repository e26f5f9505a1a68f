import Cfpl.Proofs.Node.Origin
import Cfpl.Proofs.Reading.Step
import Cfpl.Program.Grammar

/-! Expressions that are read belong to the grammar. Whatever is reported, the node is an expression
made of the tokens taken; if nothing is reported, the tokens taken are derived as that node. -/

namespace Cfpl.Program

open Reader Grammar

namespace Grammar.Level

def accepts : Level → Symbol → Bool
  | disjunction => (· = .orWord)
  | conjunction => (· = .andWord)
  | equality => isEquality
  | comparison => isComparison
  | sum => isSum
  | product => isProduct
  | assignment | unary | primary => fun _ => false

theorem accepts_iff (level : Level) (symbol : Symbol) :
    level.accepts symbol ↔ symbol ∈ level.operators := by
  cases level <;> cases symbol <;> decide

theorem isUnary_iff (symbol : Symbol) : isUnary symbol ↔ symbol ∈ [Symbol.notWord, .bang, .minus] := by
  cases symbol <;> decide

theorem carriesLiteral_iff (symbol : Symbol) :
    carriesLiteral symbol ↔ symbol ∈ [Symbol.number, .text, .character, .lineBreak] := by
  cases symbol <;> decide

private theorem join_from {given : Token → Prop} {level : Level} {operator : Token} {left right : Node}
    (held : given operator) (joins : operator.symbol ∈ level.operators)
    (leftFrom : left.ExpressionFrom given) (rightFrom : right.ExpressionFrom given) :
    (level.join left operator right).ExpressionFrom given := by
  have covered : level.operators ⊆ Node.logicalOperators ∧ level.join = .logical ∨
      level.operators ⊆ Node.binaryOperators ∧ level.join = .binary := by
    cases level <;> simp [operators, join, Node.logicalOperators, Node.binaryOperators]
  rcases covered with ⟨known, same⟩ | ⟨known, same⟩
  · rw [same]
    exact .logical held (known joins) leftFrom rightFrom
  · rw [same]
    exact .binary held (known joins) leftFrom rightFrom

end Grammar.Level

private theorem Grammar.reference_tokens {level : Level} {tokens : List Token} {name : Token}
    (derived : Expression level tokens (.reference name)) :
    tokens = [name] ∧ name.symbol = .identifier := by
  generalize meant : Node.reference name = node at derived
  induction derived with
  | stronger _ ih => exact ih meant
  | @joined level _ _ _ _ _ _ _ _ _ _ => cases level <;> cases meant
  | reference symbol =>
    cases meant
    exact ⟨rfl, symbol⟩
  | _ => cases meant

structure ReadAs (level : Level) (taken : List Token) (new : List Diagnostic) (node : Node) : Prop where
  some_ : taken ≠ []
  made : node.ExpressionFrom (· ∈ taken)
  derived : new = [] → Expression level taken node

namespace ReadAs

variable {level : Level} {first taken : List Token} {new newer : List Diagnostic}
  {node left right : Node} {operator : Token}

theorem stronger (level : Level) (read : ReadAs level.next taken new node) : ReadAs level taken new node :=
  ⟨read.some_, read.made, fun quiet => .stronger (read.derived quiet)⟩

theorem joined (before : ReadAs level first new left) (joins : operator.symbol ∈ level.operators)
    (after : ReadAs level.next taken newer right) :
    ReadAs level (first ++ operator :: taken) (new ++ newer) (level.join left operator right) := by
  refine ⟨by simp, ?_, fun quiet => ?_⟩
  · refine Level.join_from (by simp) joins (before.made.mono ?_) (after.made.mono ?_)
    · exact fun token member => List.mem_append_left _ member
    · exact fun token member => List.mem_append_right _ (.tail _ member)
  · obtain ⟨rfl, rfl⟩ := List.append_eq_nil_iff.mp quiet
    exact .joined joins (before.derived rfl) (after.derived rfl)

end ReadAs

section Levels

variable {inner : Reader Node} {input : List Token} {limit : Nat}

private theorem does_leftGrouped {level : Level} {operand : Reader Node} {before : List Token}
    {reported : List Diagnostic} {left : Node} (covered : input.length ≤ limit)
    (operands : DoesBelow input.length operand fun taken new node _ => ReadAs level.next taken new node)
    (start : ReadAs level before reported left) :
    Does (leftGrouped level.join level.accepts operand limit left) input fun taken new node _ =>
      ReadAs level (before ++ taken) (reported ++ new) node := by
  -- What was read so far is the left operand of the next operator, so it grows along the induction.
  induction limit generalizing input before reported left with
  | zero => exact does_none covered
  | succ limit ih =>
    unfold leftGrouped
    apply (does_take? _).bind
    intro taken new found rest moved read
    cases found with
    | none =>
      obtain ⟨rfl, rfl, held⟩ := read
      exact .pure (by simpa using start)
    | some operator =>
      obtain ⟨rfl, rfl, held⟩ := read
      have shorter := moved.length_one
      apply (operands rest (by omega)).bind
      intro more newer right left_ further read
      have shrunk := further.length
      have grown := start.joined ((level.accepts_iff _).mp held) read
      refine (ih (by omega)
        (operands.shorter (by omega)) grown).mono ?_
      intro others newest node last _ whole
      simpa using whole

private theorem does_level (level : Level) {operand : Reader Node}
    (covered : input.length ≤ limit)
    (operands : DoesBelow (input.length + 1) operand fun taken new node _ =>
      ReadAs level.next taken new node) :
    Does (Program.level level.join level.accepts limit operand) input fun taken new node _ =>
      ReadAs level taken new node := by
  apply (operands input (Nat.lt_succ_self _)).bind
  intro taken new left rest moved read
  have shrunk := moved.length
  exact does_leftGrouped (by omega) (operands.shorter (by omega))
    (read.stronger level)

private theorem does_primary
    (inside : DoesBelow input.length inner fun taken new node _ => ReadAs .assignment taken new node) :
    Does (primary inner) input fun taken new node _ => ReadAs .primary taken new node := by
  apply (does_expectAny _ _).bind
  intro taken new token rest moved read
  obtain ⟨rfl, rfl, starts⟩ := read
  have shorter := moved.length_one
  split
  · next symbol =>
    exact .pure ⟨List.cons_ne_nil _ _, .truth false, fun _ => .falsehood symbol⟩
  · next symbol =>
    exact .pure ⟨List.cons_ne_nil _ _, .truth true, fun _ => .truth symbol⟩
  · next symbol =>
    exact .pure ⟨List.cons_ne_nil _ _, .reference (by simp) symbol, fun _ => .reference symbol⟩
  · next symbol =>
    apply (inside rest (by omega)).bind
    intro more newer body left further read
    apply (does_expect _ _).bind
    intro last newest closing after _ read
    obtain ⟨rfl, rfl, closes⟩ := read
    refine .pure ⟨by simp, .grouping (read.made.mono ?_), fun quiet => ?_⟩
    · exact fun token member => by simp [member]
    · exact .grouping symbol closes (read.derived (by simpa using quiet))
  · next notFalse notTrue notName notParen =>
    have carries : carriesLiteral token.symbol := by
      grind [startsPrimary]
    refine .pure ⟨List.cons_ne_nil _ _, .literal (by simp) carries, fun _ => ?_⟩
    exact .literal ((Level.carriesLiteral_iff _).mp carries)

private theorem does_operand (covered : input.length ≤ limit)
    (inside : DoesBelow input.length inner fun taken new node _ => ReadAs .assignment taken new node) :
    Does (operand inner limit) input fun taken new node _ => ReadAs .unary taken new node := by
  induction limit generalizing input with
  | zero => exact does_none covered
  | succ limit ih =>
    unfold operand
    apply (does_take? _).bind
    intro taken new found rest moved read
    cases found with
    | none =>
      obtain ⟨rfl, rfl, held⟩ := read
      obtain rfl : input = rest := moved.split
      exact (does_primary inside).mono fun _ _ _ _ _ read => read.stronger .unary
    | some operator =>
      obtain ⟨rfl, rfl, held⟩ := read
      have shorter := moved.length_one
      apply (ih (by omega) (inside.shorter (by omega))).bind
      intro more newer right left _ read
      have known := (Level.isUnary_iff _).mp held
      refine .pure ⟨by simp, .unary (by simp) known (read.made.mono ?_), fun quiet => ?_⟩
      · exact fun token member => by simp [member]
      · exact .unary known (by simpa using read.derived (by simpa using quiet))

private theorem does_disjunction (covered : input.length ≤ limit)
    (inside : DoesBelow input.length inner fun taken new node _ => ReadAs .assignment taken new node) :
    Does (disjunction inner limit) input fun taken new node _ =>
      ReadAs .disjunction taken new node := by
  have unary : DoesBelow (input.length + 1) (operand inner limit) fun taken new node _ =>
      ReadAs .unary taken new node :=
    fun rest less => does_operand (by omega) (inside.shorter (by omega))
  have product : DoesBelow (input.length + 1) (product inner limit) fun taken new node _ =>
      ReadAs .product taken new node :=
    fun rest less => does_level .product (by omega) (unary.shorter (by omega))
  have sum : DoesBelow (input.length + 1) (sum inner limit) fun taken new node _ =>
      ReadAs .sum taken new node :=
    fun rest less => does_level .sum (by omega) (product.shorter (by omega))
  have comparison : DoesBelow (input.length + 1) (comparison inner limit) fun taken new node _ =>
      ReadAs .comparison taken new node :=
    fun rest less => does_level .comparison (by omega) (sum.shorter (by omega))
  have equality : DoesBelow (input.length + 1) (equality inner limit) fun taken new node _ =>
      ReadAs .equality taken new node :=
    fun rest less =>
      does_level .equality (by omega) (comparison.shorter (by omega))
  have conjunction : DoesBelow (input.length + 1) (conjunction inner limit) fun taken new node _ =>
      ReadAs .conjunction taken new node :=
    fun rest less =>
      does_level .conjunction (by omega) (equality.shorter (by omega))
  exact does_level .disjunction covered conjunction

end Levels

theorem does_expression (limit : Nat) :
    DoesBelow (limit + 1) (expression limit) fun taken new node _ =>
      ReadAs .assignment taken new node := by
  induction limit with
  | zero =>
    intro input less
    exact does_none (Nat.le_of_lt_succ less)
  | succ limit ih =>
    intro input less
    unfold expression
    apply (does_disjunction (by omega) (ih.shorter (by omega))).bind
    intro taken new target rest moved read
    apply (does_take? _).bind
    intro more newer found left further read
    cases found with
    | none =>
      obtain ⟨rfl, rfl, held⟩ := read
      exact .pure (by simpa using read.stronger .assignment)
    | some equals =>
      obtain ⟨rfl, rfl, held⟩ := read
      have shrunk := moved.length
      have shorter := further.length_one
      apply (ih left (by omega)).bind
      intro others newest value last _ valued
      split
      · next name =>
        refine .pure ⟨by simp, ?_, fun quiet => ?_⟩
        · cases read.made with
          | reference held symbol =>
            refine .assign (List.mem_append_left _ held) symbol (valued.made.mono ?_)
            exact fun token member => by simp [member]
        · obtain ⟨quiet, later⟩ := List.append_eq_nil_iff.mp quiet
          obtain ⟨rfl, symbol⟩ := Grammar.reference_tokens (read.derived quiet)
          simpa using Expression.assign symbol (of_decide_eq_true held)
            (valued.derived (by simpa using later))
      · apply (does_report _).bind
        intro _ _ _ _ _ read
        obtain ⟨rfl, rfl⟩ := read
        refine .pure ⟨by simp [read.some_], read.made.mono ?_, fun quiet => ?_⟩
        · exact fun token member => List.mem_append_left _ member
        · simp at quiet

end Cfpl.Program
