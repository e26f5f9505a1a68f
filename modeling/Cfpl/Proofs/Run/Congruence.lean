import Cfpl.Node.Tokens
import Cfpl.Proofs.Run.Gives
import Cfpl.Run.State

/-! Relations between runs that every way of putting runs together keeps. Where the actions of a program are
related, so are the runs of its nodes. The second program may stand a number of lines further down, and may
run under other settings. A property of runs is such a relation, too: one that looks at the first run only. -/

namespace Cfpl.Operation

variable (lines : Int)

private theorem onDoubles_shift (operation : Float → Float → Value) (m n : Number) :
    onDoubles operation m n = (onDoubles operation m n).mapError (Halt.shift lines) := by
  rcases onDoubles_cases operation m n with ⟨value, computed⟩ | failed
  · rw [computed]
    rfl
  · rw [failed]
    rfl

variable (operator : Token) (a b : Value)

private theorem arithmetic_shift (onIntegers : Int → Int → Option Int) (onFloats : Float → Float → Float)
    (m n : Number) :
    arithmetic (operator.shift lines) onIntegers onFloats m n =
      (arithmetic operator onIntegers onFloats m n).mapError (Halt.shift lines) := by
  unfold arithmetic
  split
  · split <;> rfl
  · exact onDoubles_shift lines _ _ _

private theorem numbersOnly_shift {operation shifted : Number → Number → Except Halt Value}
    (alike : ∀ m n, shifted m n = (operation m n).mapError (Halt.shift lines)) :
    numbersOnly (operator.shift lines) shifted a b =
      (numbersOnly operator operation a b).mapError (Halt.shift lines) := by
  unfold numbersOnly
  split
  · exact alike _ _
  · rfl

private theorem remainder_shift :
    remainder (operator.shift lines) a b = (remainder operator a b).mapError (Halt.shift lines) := by
  unfold remainder
  split
  · split <;> rfl
  · rfl

private theorem sum_shift : sum (operator.shift lines) a b = (sum operator a b).mapError (Halt.shift lines) := by
  unfold sum
  split
  · exact arithmetic_shift lines operator _ _ _ _
  · split <;> rfl

theorem binary_shift :
    binary (operator.shift lines) a b = (binary operator a b).mapError (Halt.shift lines) := by
  unfold binary
  rw [show (operator.shift lines).symbol = operator.symbol from rfl]
  split
  case h_4 => exact remainder_shift lines operator a b
  case h_9 => exact sum_shift lines operator a b
  case h_5 | h_6 | h_7 | h_8 =>
    exact numbersOnly_shift lines operator a b fun m n => onDoubles_shift lines _ m n
  case h_10 | h_11 | h_12 =>
    exact numbersOnly_shift lines operator a b (arithmetic_shift lines operator _ _)
  all_goals rfl

private theorem unary_shift : unary (operator.shift lines) a = (unary operator a).mapError (Halt.shift lines) := by
  unfold unary
  rw [show (operator.shift lines).symbol = operator.symbol from rfl]
  split
  case h_3 => split <;> rfl
  all_goals rfl

end Cfpl.Operation

namespace Cfpl.Node

def declares : Node → Bool
  | declare _ _ _ => true
  | branch _ thenBranch elseBranch => thenBranch.declares || elseBranch.declares
  | loop _ body => body.declares
  | _ => false

end Cfpl.Node

namespace Cfpl

namespace Halt

def At (given : Token → Prop) : Halt → Prop
  | fault token _ => given token
  | misuse _ | unfinished => True

end Halt

namespace Operation

variable {given : Token → Prop} {operator : Token} (known : given operator)
include known

omit known in
private theorem at_onDoubles {operation : Float → Float → Value} {m n : Number} {halt : Halt}
    (failed : onDoubles operation m n = .error halt) : halt.At given := by
  rcases onDoubles_cases operation m n with ⟨value, computed⟩ | tooLarge
  · rw [computed] at failed
    cases failed
  · rw [tooLarge] at failed
    cases failed
    trivial

private theorem at_arithmetic {onIntegers : Int → Int → Option Int} {onFloats : Float → Float → Float}
    {m n : Number} {halt : Halt} (failed : arithmetic operator onIntegers onFloats m n = .error halt) :
    halt.At given := by
  unfold arithmetic at failed
  split at failed
  · split at failed <;> cases failed
    exact known
  · exact at_onDoubles failed

private theorem at_numbersOnly {operation : Number → Number → Except Halt Value} {a b : Value} {halt : Halt}
    (inner : ∀ {m n halt}, operation m n = .error halt → halt.At given)
    (failed : numbersOnly operator operation a b = .error halt) : halt.At given := by
  unfold numbersOnly at failed
  split at failed
  · exact inner failed
  · cases failed
    exact known

private theorem at_remainder {a b : Value} {halt : Halt} (failed : remainder operator a b = .error halt) :
    halt.At given := by
  unfold remainder at failed
  split at failed
  · split at failed <;> cases failed
    exact known
  · cases failed
    exact known

private theorem at_sum {a b : Value} {halt : Halt} (failed : sum operator a b = .error halt) :
    halt.At given := by
  unfold sum at failed
  split at failed
  · exact at_arithmetic known failed
  · split at failed <;> cases failed
    exact known

private theorem at_binary {a b : Value} {halt : Halt} (failed : binary operator a b = .error halt) :
    halt.At given := by
  unfold binary at failed
  split at failed
  case h_4 => exact at_remainder known failed
  case h_5 | h_6 | h_7 | h_8 => exact at_numbersOnly known at_onDoubles failed
  case h_9 => exact at_sum known failed
  case h_10 | h_11 | h_12 => exact at_numbersOnly known (at_arithmetic known) failed
  all_goals
    cases failed
    try exact known

private theorem at_unary {a : Value} {halt : Halt} (failed : unary operator a = .error halt) : halt.At given := by
  unfold unary at failed
  split at failed
  case h_3 =>
    split at failed <;> cases failed
    exact known
  all_goals
    cases failed
    try exact known

end Operation

namespace Run

/-- A relation between the runs under two settings. It knows which tokens the first program is made of, and
the depths at which the innermost scope may be declared in. -/
structure Congruence (settings other : Settings) where
  rounds : settings.rounds = other.rounds
  /-- How much further down the second program stands. -/
  lines : Int
  named : Token → Prop
  marked : Token → Prop
  opened : Nat → Prop
  opened_succ (depth : Nat) : opened (depth + 1)
  Relates : (depth : Nat) → {α : Type} → Run α → Run α → Prop
  pure {depth : Nat} {α : Type} (a : α) : Relates depth (Pure.pure a) (Pure.pure a)
  raise {depth : Nat} {α : Type} {halt : Halt} : halt.At (fun token => named token ∨ marked token) →
    Relates depth (throw halt : Run α) (throw (halt.shift lines))
  bind {depth : Nat} {α β : Type} {run otherRun : Run α} {next later : α → Run β} :
    Relates depth run otherRun → (∀ a, Relates depth (next a) (later a)) →
    Relates depth (run >>= next) (otherRun >>= later)
  inScope {depth : Nat} {α : Type} {run otherRun : Run α} :
    Relates (depth + 1) run otherRun → Relates depth (Run.inScope run) (Run.inScope otherRun)
  record {depth : Nat} (entry : TraceEntry) :
    Relates depth (Run.record settings entry) (Run.record other entry)
  output {depth : Nat} (text : String) : Relates depth (emit (.output text)) (emit (.output text))
  report {depth : Nat} {token : Token} (message : String) : named token ∨ marked token →
    Relates depth (Run.report (.atToken token message)) (Run.report (.atToken (token.shift lines) message))
  readLine {depth : Nat} : Relates depth Run.readLine Run.readLine
  lookup {depth : Nat} {name : Token} : named name →
    Relates depth (Run.lookup name) (Run.lookup (name.shift lines))
  tryAssign {depth : Nat} {name : Token} (value : Value) : named name →
    Relates depth (Run.tryAssign name value) (Run.tryAssign (name.shift lines) value)
  define {depth : Nat} {name : Token} (value : Value) : opened depth → named name →
    Relates depth (Run.define name.lexeme value) (Run.define name.lexeme value)

namespace Congruence

variable {settings other : Settings} (relation : Congruence settings other) {depth : Nat} {α : Type}

structure Covers (node : Node) : Prop where
  names : ∀ token ∈ node.names, relation.named token
  marks : ∀ token ∈ node.marks, relation.marked token

structure CoversAll (nodes : List Node) : Prop where
  names : ∀ token ∈ Node.namesOfAll nodes, relation.named token
  marks : ∀ token ∈ Node.marksOfAll nodes, relation.marked token

variable {relation}

theorem misuse (misuse : Misuse) :
    relation.Relates depth (Run.misuse misuse : Run α) (Run.misuse misuse) := by
  have nowhere : (Halt.misuse misuse).At fun token => relation.named token ∨ relation.marked token := trivial
  exact relation.raise nowhere

theorem ofExcept {result : Except Halt α} (faults : ∀ halt, result = .error halt → halt.At relation.marked) :
    relation.Relates depth (Run.ofExcept result)
      (Run.ofExcept (result.mapError (Halt.shift relation.lines))) := by
  cases result with
  | ok a => exact relation.pure a
  | error halt =>
    have atMark := faults halt rfl
    apply relation.raise
    cases halt with
    | fault token fault => exact .inr atMark
    | misuse misuse => trivial
    | unfinished => trivial

theorem assign {name : Token} (known : relation.named name) (value : Value) :
    relation.Relates depth (Run.assign name value) (Run.assign (name.shift relation.lines) value) := by
  apply relation.bind (relation.tryAssign value known)
  intro refused
  cases refused with
  | none => exact relation.pure ()
  | some fault =>
    have atName : (Halt.fault name fault).At fun token => relation.named token ∨ relation.marked token :=
      .inl known
    exact relation.raise atName

theorem whileHolds {test otherTest : Run Bool} {step otherStep : Run Unit}
    (tests : relation.Relates depth test otherTest) (steps : relation.Relates depth step otherStep)
    (rounds : Nat) :
    relation.Relates depth (Run.whileHolds test step rounds) (Run.whileHolds otherTest otherStep rounds) := by
  induction rounds with
  | zero =>
    have nowhere : Halt.unfinished.At fun token => relation.named token ∨ relation.marked token := trivial
    exact relation.raise nowhere
  | succ rounds ih =>
    apply relation.bind tests
    intro holds
    cases holds with
    | false => exact relation.pure ()
    | true => exact relation.bind steps fun _ => ih

theorem evaluate : ∀ node : Node, relation.Covers node →
    relation.Relates depth (Run.evaluate settings node) (Run.evaluate other (node.shift relation.lines))
  | .literal (some value), _ => relation.pure value
  | .literal none, _ => misuse .missingLiteral
  | .grouping body, covers => evaluate body ⟨covers.names, covers.marks⟩
  | .reference name, covers => relation.lookup (covers.names name (.head _))
  | .assign name body, covers => by
    obtain ⟨known, names⟩ := List.forall_mem_cons.mp covers.names
    apply relation.bind (evaluate body ⟨names, covers.marks⟩)
    intro value
    apply relation.bind (assign known value)
    intro _
    exact relation.bind (relation.record _) fun _ => relation.pure value
  | .unary operator right, covers => by
    obtain ⟨known, marks⟩ := List.forall_mem_cons.mp covers.marks
    apply relation.bind (evaluate right ⟨covers.names, marks⟩)
    intro operand
    rw [Operation.unary_shift]
    exact ofExcept fun _ => Operation.at_unary known
  | .logical left operator right, covers => by
    obtain ⟨namesLeft, namesRight⟩ := List.forall_mem_append.mp covers.names
    obtain ⟨marksLeft, marks⟩ := List.forall_mem_append.mp covers.marks
    obtain ⟨_, marksRight⟩ := List.forall_mem_cons.mp marks
    apply relation.bind (evaluate left ⟨namesLeft, marksLeft⟩)
    intro first
    rw [show (operator.shift relation.lines).symbol = operator.symbol from rfl]
    split
    · exact relation.pure first
    · exact evaluate right ⟨namesRight, marksRight⟩
  | .binary left operator right, covers => by
    obtain ⟨namesLeft, namesRight⟩ := List.forall_mem_append.mp covers.names
    obtain ⟨marksLeft, marks⟩ := List.forall_mem_append.mp covers.marks
    obtain ⟨known, marksRight⟩ := List.forall_mem_cons.mp marks
    apply relation.bind (evaluate left ⟨namesLeft, marksLeft⟩)
    intro first
    apply relation.bind (evaluate right ⟨namesRight, marksRight⟩)
    intro second
    rw [Operation.binary_shift]
    exact ofExcept fun _ => Operation.at_binary known
  | .absent, _ | .list _, _ | .expression _, _ | .output _, _ | .declare _ _ _, _ | .block _, _ | .input _, _
  | .branch _ _ _, _ | .loop _ _, _ => misuse .notExpression
termination_by structural node => node

theorem startingValue (name : String) {dataType : Token} (known : relation.marked dataType) :
    relation.Relates depth (Run.startingValue name dataType)
      (Run.startingValue name (dataType.shift relation.lines)) := by
  unfold Run.startingValue
  rw [show (dataType.shift relation.lines).symbol = dataType.symbol from rfl]
  split
  · exact relation.pure _
  · exact relation.bind (relation.report _ (.inr known)) fun _ => relation.pure _

theorem declaredValue (name : String) {dataType : Token} (known : relation.marked dataType) (value : Value) :
    relation.Relates depth (Run.declaredValue name dataType value)
      (Run.declaredValue name (dataType.shift relation.lines) value) := by
  unfold Run.declaredValue
  rw [show (dataType.shift relation.lines).symbol = dataType.symbol from rfl]
  split
  · exact misuse .notDataType
  · split
    · exact relation.pure value
    · exact relation.bind (relation.report _ (.inr known)) fun _ => relation.pure _

theorem declarationValue (name : String) {dataType : Option Token}
    (known : ∀ type ∈ dataType, relation.marked type) (given : Option Value) :
    relation.Relates depth (Run.declarationValue name dataType given)
      (Run.declarationValue name (dataType.map (Token.shift relation.lines)) given) := by
  cases dataType with
  | none => exact misuse .missingDataType
  | some dataType =>
    cases given with
    | none => exact startingValue name (known dataType rfl)
    | some value => exact declaredValue name (known dataType rfl) value

theorem declareAs {name : Token} {dataType : Option Token} (opened : relation.opened depth)
    (known : relation.named name) (types : ∀ type ∈ dataType, relation.marked type) (given : Option Value) :
    relation.Relates depth (Run.declareAs settings name dataType given)
      (Run.declareAs other (name.shift relation.lines) (dataType.map (Token.shift relation.lines)) given) := by
  apply relation.bind (declarationValue name.lexeme types given)
  intro value
  exact relation.bind (relation.define value opened known) fun _ => relation.record _

theorem declare {name : Token} {initial : Node} {dataType : Option Token} (opened : relation.opened depth)
    (covers : relation.Covers (.declare name initial dataType)) :
    relation.Relates depth (Run.declare settings name initial dataType)
      (Run.declare other (name.shift relation.lines) (initial.shift relation.lines)
        (dataType.map (Token.shift relation.lines))) := by
  obtain ⟨known, names⟩ := List.forall_mem_cons.mp covers.names
  obtain ⟨types, marks⟩ := List.forall_mem_append.mp covers.marks
  have marked : ∀ type ∈ dataType, relation.marked type :=
    fun type member => types type (Option.mem_toList.mpr member)
  unfold Run.declare
  rw [Node.isAbsent_shift]
  split
  · exact declareAs opened known marked none
  · rw [bind_map_left, bind_map_left]
    apply relation.bind (evaluate initial ⟨names, marks⟩)
    intro value
    exact declareAs opened known marked (some value)

theorem inputField {name : Token} (known : relation.named name) (field : String) :
    relation.Relates depth (Run.inputField settings name field)
      (Run.inputField other (name.shift relation.lines) field) := by
  apply relation.bind (relation.lookup known)
  intro current
  split
  · next value _ => exact relation.bind (assign known value) fun _ => relation.record _
  · apply relation.bind (relation.report _ (.inl known))
    intro _
    apply relation.bind (relation.tryAssign _ known)
    intro refused
    cases refused with
    | none => exact relation.pure ()
    | some fault => exact relation.report _ (.inl known)

theorem inputFields {names : List Token} (known : ∀ name ∈ names, relation.named name)
    (fields : List String) :
    relation.Relates depth (Run.inputFields settings names fields)
      (Run.inputFields other (names.map (Token.shift relation.lines)) fields) := by
  induction names generalizing fields with
  | nil => exact relation.pure ()
  | cons name names ih =>
    obtain ⟨first, others⟩ := List.forall_mem_cons.mp known
    cases fields with
    | nil => exact relation.pure ()
    | cons field fields => exact relation.bind (inputField first field) fun _ => ih others fields

theorem readFields {names : List Token} (known : ∀ name ∈ names, relation.named name) :
    relation.Relates depth (Run.readFields names)
      (Run.readFields (names.map (Token.shift relation.lines))) := by
  apply relation.bind relation.readLine
  intro line
  rw [List.length_map]
  dsimp only
  by_cases fits : ((line.map Field.split).getD []).length = names.length
  · rw [if_pos fits, if_pos fits]
    exact relation.pure _
  · rw [if_neg fits, if_neg fits]
    cases names with
    | nil => exact misuse .noNames
    | cons first others =>
      exact relation.bind (relation.report _ (.inl (known first (.head _)))) fun _ => relation.pure none

theorem input {names : List Token} (known : ∀ name ∈ names, relation.named name) :
    relation.Relates depth (Run.input settings names)
      (Run.input other (names.map (Token.shift relation.lines))) := by
  apply relation.bind (readFields known)
  intro fields
  cases fields with
  | none => exact relation.pure ()
  | some fields => exact inputFields known fields

mutual

theorem execute : ∀ (node : Node) (depth : Nat), relation.Covers node →
    (¬relation.opened depth → ¬node.declares) →
    relation.Relates depth (Run.execute settings node) (Run.execute other (node.shift relation.lines))
  | .expression body, _, covers, _ => relation.bind (relation.record _) fun _ =>
    relation.bind (evaluate body ⟨covers.names, covers.marks⟩) fun _ => relation.pure ()
  | .output body, _, covers, _ => relation.bind (relation.record _) fun _ =>
    relation.bind (evaluate body ⟨covers.names, covers.marks⟩) fun _ => relation.output _
  | .declare name initial dataType, depth, covers, inner => by
    have opened : relation.opened depth := Classical.byContradiction fun closed => inner closed rfl
    exact relation.bind (relation.record _) fun _ => declare opened covers
  | .block body, depth, covers, _ => relation.bind (relation.record _) fun _ =>
    relation.inScope (executeAll body (depth + 1) ⟨covers.names, covers.marks⟩ fun closed =>
      absurd (relation.opened_succ depth) closed)
  | .input names, _, covers, _ => relation.bind (relation.record _) fun _ => input covers.names
  | .branch condition thenBranch elseBranch, depth, covers, inner => by
    have inside (closed : ¬relation.opened depth) : ¬thenBranch.declares ∧ ¬elseBranch.declares := by
      simpa [Node.declares] using inner closed
    obtain ⟨names, namesElse⟩ := List.forall_mem_append.mp covers.names
    obtain ⟨namesCondition, namesThen⟩ := List.forall_mem_append.mp names
    obtain ⟨marks, marksElse⟩ := List.forall_mem_append.mp covers.marks
    obtain ⟨marksCondition, marksThen⟩ := List.forall_mem_append.mp marks
    apply relation.bind (relation.record _)
    intro _
    apply relation.bind (evaluate condition ⟨namesCondition, marksCondition⟩)
    intro value
    apply relation.bind (relation.record _)
    intro _
    rw [Node.isAbsent_shift]
    split
    · exact execute thenBranch depth ⟨namesThen, marksThen⟩ fun closed => (inside closed).1
    · split
      · exact relation.pure ()
      · exact execute elseBranch depth ⟨namesElse, marksElse⟩ fun closed => (inside closed).2
  | .loop condition body, depth, covers, inner => by
    obtain ⟨namesCondition, namesBody⟩ := List.forall_mem_append.mp covers.names
    obtain ⟨marksCondition, marksBody⟩ := List.forall_mem_append.mp covers.marks
    apply relation.bind (relation.record _)
    intro _
    rw [relation.rounds]
    refine whileHolds ?_ (execute body depth ⟨namesBody, marksBody⟩ inner) other.rounds
    apply relation.bind (evaluate condition ⟨namesCondition, marksCondition⟩)
    intro value
    exact relation.bind (relation.record _) fun _ => relation.pure value.holds
  | .absent, _, _, _ | .list _, _, _, _ | .literal _, _, _, _ | .grouping _, _, _, _ | .unary _ _, _, _, _
  | .binary _ _ _, _, _, _ | .logical _ _ _, _, _, _ | .reference _, _, _, _ | .assign _ _, _, _, _ =>
    relation.bind (relation.record _) fun _ => misuse .notStatement
termination_by structural node => node

theorem executeAll : ∀ (nodes : List Node) (depth : Nat), relation.CoversAll nodes →
    (¬relation.opened depth → ∀ node ∈ nodes, ¬node.declares) →
    relation.Relates depth (Run.executeAll settings nodes)
      (Run.executeAll other (Node.shiftAll relation.lines nodes))
  | [], _, _, _ => relation.pure ()
  | first :: rest, depth, covers, inner => by
    obtain ⟨namesFirst, namesRest⟩ := List.forall_mem_append.mp covers.names
    obtain ⟨marksFirst, marksRest⟩ := List.forall_mem_append.mp covers.marks
    have plain : ¬relation.opened depth → ¬first.declares := fun closed => inner closed first (.head _)
    apply relation.bind (execute first depth ⟨namesFirst, marksFirst⟩ plain)
    intro _
    exact executeAll rest depth ⟨namesRest, marksRest⟩ fun closed node member =>
      inner closed node (.tail _ member)
termination_by structural nodes => nodes

end

section Same

variable (relation) (same : relation.lines = 0)
include same

theorem evaluateSame {node : Node} (covers : relation.Covers node) :
    relation.Relates depth (Run.evaluate settings node) (Run.evaluate other node) := by
  have related : relation.Relates depth (Run.evaluate settings node)
      (Run.evaluate other (node.shift relation.lines)) := evaluate node covers
  rwa [same, Node.shift_zero] at related

theorem executeSame {node : Node} (depth : Nat) (covers : relation.Covers node)
    (inner : ¬relation.opened depth → ¬node.declares) :
    relation.Relates depth (Run.execute settings node) (Run.execute other node) := by
  have related := execute node depth covers inner
  rwa [same, Node.shift_zero] at related

theorem executeAllSame {nodes : List Node} (depth : Nat) (covers : relation.CoversAll nodes)
    (inner : ¬relation.opened depth → ∀ node ∈ nodes, ¬node.declares) :
    relation.Relates depth (Run.executeAll settings nodes) (Run.executeAll other nodes) := by
  have related := executeAll nodes depth covers inner
  rwa [same, Node.shiftAll_zero] at related

end Same

end Congruence

end Run

end Cfpl
