import Cfpl.Proofs.Reading.Expression

/-! Expressions of the grammar are read. A row of tokens that is derived as a node is taken as that node,
without a report, if the token behind it does not go on with the expression. -/

namespace Cfpl.Program

open Reader Grammar

namespace Reader

variable {α β : Type} {first second rest tokens : List Token} {a : α}

/-- The step takes just the given tokens, reports nothing, and goes on as another one. -/
def Leads (step : Reader α) (tokens : List Token) (next : Reader α) (rest : List Token) : Prop :=
  ∀ reports, step ⟨tokens ++ rest, reports⟩ = next ⟨rest, reports⟩

/-- The step takes just the given tokens, reports nothing, and gives the result. -/
def Reads (step : Reader α) (tokens : List Token) (a : α) (rest : List Token) : Prop :=
  ∀ reports, step ⟨tokens ++ rest, reports⟩ = .ok a ⟨rest, reports⟩

theorem Reads.leads {step : Reader α} (reads : Reads step first a rest) (next : α → Reader β) :
    Leads (step >>= next) first (next a) rest := by
  exact fun reports => bind_of_ok (reads reports) next

theorem Leads.reads {step next : Reader α} (leads : Leads step first next (second ++ rest))
    (onward : Reads next second a rest) : Reads step (first ++ second) a rest := by
  intro reports
  rw [List.append_assoc, leads reports, onward reports]

theorem Reads.bind {step : Reader α} {next : α → Reader β} {b : β}
    (reads : Reads step first a (second ++ rest)) (continues : Reads (next a) second b rest) :
    Reads (step >>= next) (first ++ second) b rest :=
  (reads.leads next).reads continues

theorem Reads.pure (a : α) (rest : List Token) : Reads (Pure.pure a : Reader α) [] a rest :=
  fun _ => rfl

theorem Reads.before {step : Reader α} {next : α → Reader β} {b : β}
    (reads : Reads step [] a (second ++ rest)) (continues : Reads (next a) second b rest) :
    Reads (step >>= next) second b rest :=
  reads.bind continues

theorem Reads.behind {step : Reader α} {next : α → Reader β} {b : β}
    (reads : Reads step first a rest) (continues : Reads (next a) [] b rest) :
    Reads (step >>= next) first b rest := by
  have both : Reads (step >>= next) (first ++ []) b rest := Reads.bind reads continues
  rwa [List.append_nil] at both

/-- The first token is there and is not accepted. -/
def Refuses (accepts : Symbol → Bool) (tokens : List Token) : Prop :=
  ∃ token ∈ tokens.head?, token.symbol = .endOfText ∨ ¬accepts token.symbol

theorem Refuses.weaker {accepts wider : Symbol → Bool} {tokens : List Token}
    (refuses : Refuses wider tokens) (weaker : ∀ symbol, accepts symbol → wider symbol) :
    Refuses accepts tokens := by
  obtain ⟨token, found, finished | refused⟩ := refuses
  · exact ⟨token, found, .inl finished⟩
  · exact ⟨token, found, .inr fun accepted => refused (weaker _ accepted)⟩

theorem Refuses.length_pos {accepts : Symbol → Bool} {tokens : List Token}
    (refuses : Refuses accepts tokens) : 0 < tokens.length := by
  obtain ⟨token, found, _⟩ := refuses
  exact List.length_pos_of_mem (List.mem_of_mem_head? found)

theorem reads_take? {accepts : Symbol → Bool} {token : Token} (opened : token.symbol ≠ .endOfText)
    (accepted : accepts token.symbol) (rest : List Token) :
    Reads (take? accepts) [token] (some token) rest :=
  fun _ => by simp [take?, opened, accepted]

theorem reads_take?_none {accepts : Symbol → Bool} (refuses : Refuses accepts rest) :
    Reads (take? accepts) [] none rest := by
  intro reports
  obtain ⟨token, found, refused⟩ := refuses
  cases rest with
  | nil => cases found
  | cons head tail =>
    cases found
    rcases refused with finished | refused
    · simp [take?, finished]
    · simp [take?, refused]

theorem reads_expectAny {accepts : Symbol → Bool} {token : Token}
    (opened : token.symbol ≠ .endOfText) (accepted : accepts token.symbol) (message : String)
    (rest : List Token) : Reads (expectAny accepts message) [token] token rest :=
  (reads_take? opened accepted rest).behind (.pure _ _)

theorem reads_expect {symbol : Symbol} {token : Token} (same : token.symbol = symbol)
    (opened : symbol ≠ .endOfText) (message : String) (rest : List Token) :
    Reads (expect symbol message) [token] token rest :=
  reads_expectAny (same ▸ opened) (by simpa using same) message rest

end Reader

namespace Grammar.Level

def onward : Level → List Level
  | assignment | disjunction => [disjunction, conjunction, equality, comparison, sum, product]
  | conjunction => [conjunction, equality, comparison, sum, product]
  | equality => [equality, comparison, sum, product]
  | comparison => [comparison, sum, product]
  | sum => [sum, product]
  | product => [product]
  | unary | primary => []

def continues (level : Level) (symbol : Symbol) : Bool :=
  level = assignment && symbol = .equal || level.onward.any fun other => other.accepts symbol

private theorem continues_next {level : Level} {symbol : Symbol} (joins : symbol ∈ level.operators) :
    level.next.continues symbol = false := by
  cases level <;> cases symbol <;> revert joins <;> decide

private theorem accepts_le_continues (level : Level) (symbol : Symbol) :
    (level.accepts symbol → level.continues symbol) ∧
      (level.next.continues symbol → level.continues symbol) := by
  cases level <;> cases symbol <;> decide

private theorem opened_of_mem {level : Level} {symbol : Symbol} (joins : symbol ∈ level.operators) :
    symbol ≠ .endOfText := by
  intro same
  subst same
  revert joins
  cases level <;> decide

def reader (depth limit : Nat) : Level → Reader Node
  | assignment => expression (depth + 1)
  | disjunction => Program.disjunction (expression depth) limit
  | conjunction => Program.conjunction (expression depth) limit
  | equality => Program.equality (expression depth) limit
  | comparison => Program.comparison (expression depth) limit
  | sum => Program.sum (expression depth) limit
  | product => Program.product (expression depth) limit
  | unary => operand (expression depth) limit
  | primary => Program.primary (expression depth)

def more (depth limit left : Nat) (level : Level) (node : Node) : Reader Node :=
  leftGrouped level.join level.accepts (level.next.reader depth limit) left node

private theorem reader_eq_level {level : Level} (grouped : level.operators ≠ []) (depth limit : Nat) :
    level.reader depth limit = level.next.reader depth limit >>= level.more depth limit limit := by
  cases level with
  | assignment | unary | primary => exact absurd rfl grouped
  | _ => rfl

end Grammar.Level

structure Covers (depth limit : Nat) (tokens : List Token) : Prop where
  depth : tokens.length ≤ depth + 1
  limit : tokens.length ≤ limit

namespace Covers

variable {depth limit : Nat} {tokens fewer : List Token}

theorem shorter (covers : Covers depth limit tokens) (less : fewer.length ≤ tokens.length) :
    Covers depth limit fewer :=
  ⟨Nat.le_trans less covers.depth, Nat.le_trans less covers.limit⟩

theorem inside (covers : Covers depth limit tokens) (fewer : List Token) (less : fewer.length < tokens.length)
    (positive : 0 < fewer.length) : ∃ inner, depth = inner + 1 ∧ Covers inner limit fewer := by
  have depthCovers := covers.depth
  have limitCovers := covers.limit
  exact ⟨depth - 1, by omega, by omega, by omega⟩

end Covers

/-- The tokens are read as the node where an expression of the level does not go on behind them. On a
level of operators the reader has taken the node as a left operand before it looks at what follows. -/
structure IsRead (level : Level) (tokens : List Token) (node : Node) : Prop where
  whole : ∀ depth limit rest, Refuses level.continues rest → Covers depth limit (tokens ++ rest) →
    Reads (level.reader depth limit) tokens node rest
  opened : level.operators ≠ [] → ∀ depth limit rest, Refuses level.next.continues rest →
    Covers depth limit (tokens ++ rest) → ∃ left, rest.length ≤ left ∧
      Leads (level.reader depth limit) tokens (level.more depth limit left node) rest

namespace IsRead

variable {level : Level} {tokens first second rest : List Token} {node left right : Node}
  {operator name equals opening closing : Token}

private theorem ofOpened (opened : ∀ depth limit rest, Refuses level.next.continues rest →
      Covers depth limit (tokens ++ rest) → ∃ left, rest.length ≤ left ∧
        Leads (level.reader depth limit) tokens (level.more depth limit left node) rest) :
    IsRead level tokens node := by
  refine ⟨fun depth limit rest refuses covers => ?_, fun _ => opened⟩
  have further : Refuses level.next.continues rest :=
    refuses.weaker fun symbol => (level.accepts_le_continues symbol).2
  have own : Refuses level.accepts rest :=
    refuses.weaker fun symbol => (level.accepts_le_continues symbol).1
  obtain ⟨left, enough, leads⟩ := opened depth limit rest further covers
  have positive := refuses.length_pos
  obtain ⟨more, rfl⟩ : ∃ more, left = more + 1 := ⟨left - 1, by omega⟩
  have stops : Reads (level.more depth limit (more + 1) node) [] node rest := by
    refine (reads_take?_none own).before ?_
    exact .pure node rest
  simpa using leads.reads stops

theorem operand (grouped : level.operators ≠ []) (read : IsRead level.next tokens node) :
    IsRead level tokens node := by
  refine .ofOpened fun depth limit rest refuses covers => ?_
  refine ⟨limit, (covers.shorter (by simp)).limit, ?_⟩
  rw [Level.reader_eq_level grouped]
  exact (read.whole depth limit rest refuses covers).leads _

theorem joined (joins : operator.symbol ∈ level.operators) (before : IsRead level first left)
    (after : IsRead level.next second right) :
    IsRead level (first ++ operator :: second) (level.join left operator right) := by
  have grouped : level.operators ≠ [] := List.ne_nil_of_mem joins
  refine .ofOpened fun depth limit rest refuses covers => ?_
  -- The left operand ends in front of the operator, which belongs to no stronger level.
  have stands : Refuses level.next.continues (operator :: second ++ rest) :=
    ⟨operator, rfl, .inr (by simp [Level.continues_next joins])⟩
  obtain ⟨more, enough, leads⟩ := before.opened grouped depth limit _ stands
    (by simpa using covers)
  simp only [List.length_append, List.length_cons] at enough
  obtain ⟨fewer, rfl⟩ : ∃ fewer, more = fewer + 1 := ⟨more - 1, by omega⟩
  refine ⟨fewer, by omega, ?_⟩
  have takes : Reads (take? level.accepts) [operator] (some operator) (second ++ rest) :=
    reads_take? (Level.opened_of_mem joins) ((level.accepts_iff _).mpr joins) _
  have reads := after.whole depth limit rest refuses (covers.shorter (by simp; omega))
  intro reports
  rw [List.append_assoc, leads reports]
  exact (takes.leads _ reports).trans (reads.leads _ reports)

private theorem ofWhole (plain : level.operators = [])
    (whole : ∀ depth limit rest, Refuses level.continues rest → Covers depth limit (tokens ++ rest) →
      Reads (level.reader depth limit) tokens node rest) : IsRead level tokens node :=
  ⟨whole, fun grouped => absurd plain grouped⟩

theorem target (read : IsRead .disjunction tokens node) : IsRead .assignment tokens node := by
  refine .ofWhole rfl fun depth limit rest refuses covers => ?_
  have further : Refuses Level.disjunction.continues rest :=
    refuses.weaker fun symbol => (Level.assignment.accepts_le_continues symbol).2
  have own : Refuses (· = .equal) rest :=
    refuses.weaker fun symbol same => by simp_all [Level.continues]
  have reads := read.whole depth (depth + 1) rest further ⟨covers.depth, covers.depth⟩
  refine reads.behind ((reads_take?_none own).before ?_)
  exact .pure _ _

theorem assign (isEqual : equals.symbol = .equal)
    (target : IsRead .disjunction [name] (.reference name)) (read : IsRead .assignment tokens node) :
    IsRead .assignment (name :: equals :: tokens) (.assign name node) := by
  refine .ofWhole rfl fun depth limit rest refuses covers => ?_
  have positive := refuses.length_pos
  obtain ⟨inner, rfl, room⟩ := covers.inside (tokens ++ rest)
    (by simp only [List.length_append, List.length_cons]; omega) (by rw [List.length_append]; omega)
  have stands : Refuses Level.disjunction.continues (equals :: (tokens ++ rest)) :=
    ⟨equals, rfl, .inr (by rw [isEqual]; decide)⟩
  have targets := target.whole (inner + 1) (inner + 2) _ stands
    ⟨by simpa using covers.depth, by simpa using covers.depth⟩
  have takes : Reads (take? (· = .equal)) [equals] (some equals) (tokens ++ rest) :=
    reads_take? (by simp [isEqual]) (by simp [isEqual]) _
  have values := read.whole inner limit rest refuses room
  show Reads _ ([name] ++ ([equals] ++ tokens)) _ _
  refine targets.bind (takes.bind ?_)
  apply values.behind
  exact .pure _ _

theorem unary (known : operator.symbol ∈ [Symbol.notWord, .bang, .minus])
    (read : IsRead .unary tokens node) : IsRead .unary (operator :: tokens) (.unary operator node) := by
  refine .ofWhole rfl fun depth limit rest refuses covers => ?_
  have enough := covers.limit
  simp only [List.length_append, List.length_cons] at enough
  obtain ⟨fewer, rfl⟩ : ∃ fewer, limit = fewer + 1 := ⟨limit - 1, by omega⟩
  have takes : Reads (take? isUnary) [operator] (some operator) (tokens ++ rest) :=
    reads_take? (by rintro same; simp [same] at known) ((Level.isUnary_iff _).mpr known) _
  have reads := read.whole depth fewer rest refuses
    ⟨(covers.shorter (by simp)).depth, by simp; omega⟩
  show Reads _ ([operator] ++ tokens) _ _
  refine takes.bind (reads.behind ?_)
  exact .pure _ _

theorem single (begins : ∃ token ∈ tokens.head?, startsPrimary token.symbol)
    (read : IsRead .primary tokens node) : IsRead .unary tokens node := by
  refine .ofWhole rfl fun depth limit rest refuses covers => ?_
  obtain ⟨token, found, starts⟩ := begins
  have positive : 0 < tokens.length := List.length_pos_of_mem (List.mem_of_mem_head? found)
  have enough := covers.limit
  simp only [List.length_append] at enough
  obtain ⟨fewer, rfl⟩ : ∃ fewer, limit = fewer + 1 := ⟨limit - 1, by omega⟩
  have plain : ¬isUnary token.symbol := by
    revert starts
    cases token.symbol <;> decide
  have stands : Refuses isUnary (tokens ++ rest) := by
    cases tokens with
    | nil => cases found
    | cons head tail =>
      cases found
      exact ⟨token, rfl, .inr plain⟩
  refine Reads.before (reads_take?_none stands) ?_
  exact read.whole depth (fewer + 1) rest refuses covers

private theorem leaf (token : Token) (symbol : token.symbol ∈ [Symbol.trueWord, .falseWord, .identifier,
      .number, .text, .character, .lineBreak]) :
    IsRead .primary [token] (match token.symbol with
      | .trueWord => .literal (some (.boolean true))
      | .falseWord => .literal (some (.boolean false))
      | .identifier => .reference token
      | _ => .literal token.literal) := by
  refine .ofWhole rfl fun depth limit rest _ _ => ?_
  simp only [List.mem_cons, List.not_mem_nil, or_false] at symbol
  have opened : token.symbol ≠ .endOfText := by
    intro finished
    simp [finished] at symbol
  have starts : startsPrimary token.symbol := by
    rcases symbol with same | same | same | same | same | same | same <;> rw [same] <;> rfl
  apply (reads_expectAny opened starts _ rest).behind
  rcases symbol with same | same | same | same | same | same | same <;> simp only [same] <;>
    exact .pure _ rest

theorem grouping (opens : opening.symbol = .leftParen) (closes : closing.symbol = .rightParen)
    (read : IsRead .assignment tokens node) :
    IsRead .primary (opening :: tokens ++ [closing]) (.grouping node) := by
  refine .ofWhole rfl fun depth limit rest _ covers => ?_
  obtain ⟨inner, rfl, room⟩ := covers.inside (tokens ++ closing :: rest) (by simp)
    (by simp only [List.length_append, List.length_cons]; omega)
  have stands : Refuses Level.assignment.continues (closing :: rest) :=
    ⟨closing, rfl, .inr (by rw [closes]; decide)⟩
  have bodies := read.whole inner limit (closing :: rest) stands room
  have closed : Reads (expect .rightParen "Expect ')' after expression.") [closing] closing rest :=
    reads_expect closes (by decide) _ rest
  show Reads _ ([opening] ++ (tokens ++ [closing])) _ rest
  apply (reads_expectAny (by simp [opens]) (by rw [opens]; rfl) _ _).bind
  simp only [opens]
  refine bodies.bind (closed.behind ?_)
  exact .pure _ rest

end IsRead

private theorem begins_of_primary {tokens : List Token} {node : Node}
    (derived : Expression .primary tokens node) : ∃ token ∈ tokens.head?, startsPrimary token.symbol := by
  generalize same : Level.primary = level at derived
  induction derived with
  | @stronger level _ _ _ ih => cases level <;> first | exact ih rfl | cases same
  | joined joins => subst same; exact absurd joins List.not_mem_nil
  | truth symbol | falsehood symbol | reference symbol =>
    exact ⟨_, rfl, by rw [symbol]; rfl⟩
  | @literal token symbol =>
    exact ⟨token, rfl, by simp [startsPrimary, (Level.carriesLiteral_iff _).mpr symbol]⟩
  | grouping opens => exact ⟨_, rfl, by rw [opens]; rfl⟩
  | _ => cases same

private theorem isRead_reference {name : Token} (symbol : name.symbol = .identifier) :
    IsRead .disjunction [name] (.reference name) := by
  have read : IsRead .primary [name] (.reference name) := by
    simpa [symbol] using IsRead.leaf name (by simp [symbol])
  have single := read.single ⟨name, rfl, by rw [symbol]; rfl⟩
  have product : IsRead .product [name] (.reference name) := .operand (by decide) single
  have sum : IsRead .sum [name] (.reference name) := .operand (by decide) product
  have comparison : IsRead .comparison [name] (.reference name) := .operand (by decide) sum
  have equality : IsRead .equality [name] (.reference name) := .operand (by decide) comparison
  have conjunction : IsRead .conjunction [name] (.reference name) := .operand (by decide) equality
  exact .operand (by decide) conjunction

theorem isRead_of_derived {level : Level} {tokens : List Token} {node : Node}
    (derived : Expression level tokens node) : IsRead level tokens node := by
  induction derived with
  | @stronger level tokens node weaker ih =>
    cases level with
    | assignment => exact .target ih
    | unary => exact .single (begins_of_primary weaker) ih
    | primary => exact ih
    | _ => exact .operand (by decide) ih
  | assign symbol isEqual _ ih => exact .assign isEqual (isRead_reference symbol) ih
  | joined joins _ _ before after => exact before.joined joins after
  | unary known _ ih => exact .unary known ih
  | @truth token symbol | @falsehood token symbol | @reference token symbol =>
    simpa [symbol] using IsRead.leaf token (by simp [symbol])
  | @literal token symbol =>
    have read := IsRead.leaf token (by simp at symbol; simp [symbol])
    simp only [List.mem_cons, List.not_mem_nil, or_false] at symbol
    rcases symbol with same | same | same | same <;> simpa only [same] using read
  | grouping opens closes _ ih => exact .grouping opens closes ih

end Cfpl.Program
