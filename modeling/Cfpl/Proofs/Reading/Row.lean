import Cfpl.Node.Tokens
import Cfpl.Program.Statement

/-! Two rows of tokens that are the same up to the end of the text are read alike, whatever stands behind and
whatever the limits are as long as they cover the tokens. The second row may stand a number of lines
further down; then so does all that is read from it and reported about it. -/

namespace Cfpl.Program

/-- The rows have this many tokens up to the first one that ends the text, and the same ones, which stand a
number of lines apart. -/
inductive Row (lines : Int) : Nat → List Token → List Token → Prop
  | last {token : Token} (first second : List Token) (ends : token.symbol = .endOfText) :
    Row lines 1 (token :: first) (token.shift lines :: second)
  | more {count : Nat} {token : Token} {first second : List Token} (inside : token.symbol ≠ .endOfText)
    (behind : Row lines count first second) :
    Row lines (count + 1) (token :: first) (token.shift lines :: second)

namespace Row

variable {lines : Int} {count : Nat} {first second : List Token}

theorem positive (row : Row lines count first second) : 0 < count := by
  cases row <;> exact Nat.succ_pos _

theorem covered (row : Row lines count first second) :
    count ≤ first.length ∧ count ≤ second.length := by
  induction row with
  | last => simp
  | more _ _ ih => simpa using ih

theorem of_append (lines : Int) (front : List Token) {last : Token} (ends : last.symbol = .endOfText)
    (left right : List Token) :
    ∃ count, Row lines count (front ++ last :: left)
      (front.map (Token.shift lines) ++ last.shift lines :: right) := by
  induction front with
  | nil => exact ⟨1, .last left right ends⟩
  | cons token front ih =>
    by_cases here : token.symbol = .endOfText
    · exact ⟨1, .last _ _ here⟩
    · obtain ⟨count, row⟩ := ih
      exact ⟨count + 1, .more here row⟩

theorem of_same (front : List Token) {last : Token} (ends : last.symbol = .endOfText)
    (left right : List Token) : ∃ count, Row 0 count (front ++ last :: left) (front ++ last :: right) := by
  have row := of_append 0 front ends left right
  rwa [Token.shift_zero, Node.tokens_shift_zero, List.map_id] at row

end Row

namespace Reader

variable {α β : Type} {lines : Int} {count limit other : Nat}

inductive Alike (lines : Int) (count : Nat) (held : α → α → Nat → Prop) :
    EStateM.Result Trouble Position α → EStateM.Result Trouble Position α → Prop
  | ok {a b : α} {left : Nat} {first second : List Token} {reports : List Diagnostic} :
    left ≤ count → Row lines left first second → held a b left →
    Alike lines count held (.ok a ⟨first, reports⟩) (.ok b ⟨second, reports.map (.shift lines)⟩)
  | broken {left : Nat} {first second : List Token} {reports : List Diagnostic} :
    left ≤ count → Row lines left first second →
    Alike lines count held (.error .broken ⟨first, reports⟩)
      (.error .broken ⟨second, reports.map (.shift lines)⟩)

def Agrees (lines : Int) (count : Nat) (step second : Reader α) (held : α → α → Nat → Prop) : Prop :=
  ∀ left right reports, Row lines count left right →
    Alike lines count held (step ⟨left, reports⟩) (second ⟨right, reports.map (.shift lines)⟩)

def AgreesBelow (lines : Int) (size : Nat) (step second : Reader α)
    (held : α → α → Nat → Prop) : Prop :=
  ∀ count, count < size → Agrees lines count step second held

variable {step second : Reader α} {held wanted : α → α → Nat → Prop}

theorem AgreesBelow.shorter {size less : Nat} (agrees : AgreesBelow lines size step second held)
    (bound : less ≤ size) : AgreesBelow lines less step second held :=
  fun count shorter => agrees count (Nat.lt_of_lt_of_le shorter bound)

theorem Agrees.none (covered : count ≤ 0) : Agrees lines count step second held :=
  fun _ _ _ row => absurd row.positive (Nat.not_lt.mpr covered)

theorem Agrees.mono (agrees : Agrees lines count step second held)
    (weaker : ∀ a b left, left ≤ count → held a b left → wanted a b left) :
    Agrees lines count step second wanted := by
  intro left right reports row
  have alike := agrees left right reports row
  generalize step ⟨left, reports⟩ = result at alike ⊢
  generalize second ⟨right, reports.map (.shift lines)⟩ = twin at alike ⊢
  cases alike with
  | ok less row read => exact .ok less row (weaker _ _ _ less read)
  | broken less row => exact .broken less row

theorem Agrees.bind {next twin : α → Reader β} {wanted : β → β → Nat → Prop}
    (agrees : Agrees lines count step second held)
    (continues : ∀ a b left, left ≤ count → held a b left →
      Agrees lines left (next a) (twin b) wanted) :
    Agrees lines count (step >>= next) (second >>= twin) wanted := by
  intro left right reports row
  have alike := agrees left right reports row
  change Alike lines count wanted (EStateM.bind step next _) (EStateM.bind second twin _)
  unfold EStateM.bind
  generalize step ⟨left, reports⟩ = result at alike ⊢
  generalize second ⟨right, reports.map (.shift lines)⟩ = copy at alike ⊢
  cases alike with
  | broken less row => exact .broken less row
  | @ok a b left first second reports less row read =>
    have following := continues a b left less read first second reports row
    dsimp only
    generalize next a ⟨first, reports⟩ = result at following ⊢
    generalize twin b ⟨second, reports.map (.shift lines)⟩ = copy at following ⊢
    cases following with
    | ok fewer row read => exact .ok (Nat.le_trans fewer less) row read
    | broken fewer row => exact .broken (Nat.le_trans fewer less) row

theorem Agrees.pure {a b : α} (read : held a b count) :
    Agrees lines count (Pure.pure a) (Pure.pure b) held :=
  fun _ _ _ row => .ok (Nat.le_refl _) row read

private theorem agrees_peek : Agrees lines count peek peek fun a b left =>
    b = a.shift lines ∧ (a.symbol ≠ .endOfText → 1 < left) := by
  intro left right reports row
  cases row with
  | last first second ends =>
    exact .ok (Nat.le_refl _) (.last first second ends) ⟨rfl, fun inside => absurd ends inside⟩
  | more inside behind =>
    exact .ok (Nat.le_refl _) (.more inside behind) ⟨rfl, fun _ => Nat.succ_lt_succ behind.positive⟩

private theorem agrees_atEnd :
    Agrees lines count atEnd atEnd fun a b left => b = a ∧ (a = false → 1 < left) := by
  apply agrees_peek.bind
  intro a b left _ read
  obtain ⟨rfl, opened⟩ := read
  exact .pure ⟨rfl, fun further => opened (of_decide_eq_false further)⟩

private theorem agrees_at? (symbol : Symbol) :
    Agrees lines count (at? symbol) (at? symbol) fun a b _ => b = a := by
  apply agrees_peek.bind
  intro a b left _ read
  obtain ⟨rfl, _⟩ := read
  exact .pure rfl

private theorem agrees_take? (accepts : Symbol → Bool) :
    Agrees lines count (take? accepts) (take? accepts) fun a b left =>
      b = a.map (Token.shift lines) ∧ (a.isSome → left < count) := by
  intro left right reports row
  cases row with
  | @last token first second ends =>
    have stays : ¬(token.symbol ≠ .endOfText && accepts token.symbol) := by simp [ends]
    have staysMoved : ¬((token.shift lines).symbol ≠ .endOfText && accepts (token.shift lines).symbol) :=
      stays
    simp only [take?, if_neg stays, if_neg staysMoved]
    exact .ok (Nat.le_refl _) (.last first second ends) ⟨rfl, Bool.noConfusion⟩
  | @more count token first second inside behind =>
    by_cases accepted : token.symbol ≠ .endOfText && accepts token.symbol
    · have moved : (token.shift lines).symbol ≠ .endOfText && accepts (token.shift lines).symbol :=
        accepted
      simp only [take?, if_pos accepted, if_pos moved]
      exact .ok (Nat.le_succ _) behind ⟨rfl, fun _ => Nat.lt_succ_self _⟩
    · have moved : ¬((token.shift lines).symbol ≠ .endOfText && accepts (token.shift lines).symbol) :=
        accepted
      simp only [take?, if_neg accepted, if_neg moved]
      exact .ok (Nat.le_refl _) (.more inside behind) ⟨rfl, Bool.noConfusion⟩

private theorem agrees_accept (symbol : Symbol) :
    Agrees lines count (accept symbol) (accept symbol) fun a b left => b = a ∧ (a → left < count) := by
  apply (agrees_take? _).bind
  intro a b left _ read
  obtain ⟨rfl, shorter⟩ := read
  exact .pure ⟨Option.isSome_map, shorter⟩

private theorem agrees_report (diagnostic : Diagnostic) :
    Agrees lines count (report diagnostic) (report (diagnostic.shift lines)) fun _ _ _ => True := by
  intro left right reports row
  have reported : (reports ++ [diagnostic]).map (Diagnostic.shift lines) =
      reports.map (.shift lines) ++ [diagnostic.shift lines] := List.map_append
  have alike : Alike lines count (fun _ _ _ => True) (.ok () ⟨left, reports ++ [diagnostic]⟩)
      (.ok () ⟨right, (reports ++ [diagnostic]).map (.shift lines)⟩) := .ok (Nat.le_refl _) row trivial
  rwa [reported] at alike

private theorem agrees_broken : Agrees lines count (throw .broken : Reader α) (throw .broken) held :=
  fun _ _ _ row => .broken (Nat.le_refl _) row

private theorem agrees_refuse (message : String) :
    Agrees lines count (refuse message : Reader α) (refuse message) held := by
  apply agrees_peek.bind
  intro a b left _ read
  rw [read.1, Diagnostic.atToken_shift]
  exact (agrees_report _).bind fun _ _ _ _ _ => agrees_broken

private theorem agrees_expectAny (accepts : Symbol → Bool) (message : String) :
    Agrees lines count (expectAny accepts message) (expectAny accepts message) fun a b left =>
      b = a.shift lines ∧ left < count := by
  apply (agrees_take? accepts).bind
  intro a b left _ read
  obtain ⟨rfl, shorter⟩ := read
  cases a with
  | none => exact agrees_refuse message
  | some token => exact .pure ⟨rfl, shorter rfl⟩

private theorem agrees_expect (symbol : Symbol) (message : String) :
    Agrees lines count (expect symbol message) (expect symbol message) fun a b left =>
      b = a.shift lines ∧ left < count :=
  agrees_expectAny _ message

private theorem agrees_endLine (message : String) :
    Agrees lines count (endLine message) (endLine message) fun _ _ _ => True := by
  apply (agrees_accept .newline).bind
  intro a b left _ read
  obtain ⟨rfl, _⟩ := read
  cases b with
  | true => exact .pure trivial
  | false =>
    apply agrees_atEnd.bind
    intro a b left _ read
    obtain ⟨rfl, _⟩ := read
    cases b with
    | true => exact .pure trivial
    | false => exact agrees_refuse message

private theorem agrees_afterCommas {move : α → α} (covered : count ≤ limit) (coveredTwin : count ≤ other)
    (steps : AgreesBelow lines count step second fun a b _ => b = move a) :
    Agrees lines count (afterCommas step limit) (afterCommas second other) fun a b _ => b = a.map move := by
  induction limit generalizing count other with
  | zero => exact .none covered
  | succ limit ih =>
    obtain _ | other := other
    · exact .none coveredTwin
    unfold afterCommas
    apply (agrees_accept .comma).bind
    intro a b left _ read
    obtain ⟨rfl, shorter⟩ := read
    cases b with
    | false => exact .pure rfl
    | true =>
      have less := shorter rfl
      apply (steps left less).bind
      intro first twin fewer bound moved
      apply (ih (by omega) (by omega) (steps.shorter (by omega))).bind
      intro others twins _ _ same
      exact .pure (by rw [moved, same]; rfl)

private theorem agrees_upTo {done doneTwin : Reader Bool} {step second : Reader (List α)} {move : α → α}
    (covered : count ≤ limit) (coveredTwin : count ≤ other)
    (decides : ∀ left, Agrees lines left done doneTwin fun a b rest =>
      b = a ∧ (a = false → 1 < rest))
    (steps : ∀ left, 1 < left → left ≤ count → Agrees lines left step second fun a b rest =>
      b = a.map move ∧ rest < left) :
    Agrees lines count (upTo done step limit) (upTo doneTwin second other) fun a b _ => b = a.map move := by
  induction limit generalizing count other with
  | zero => exact .none covered
  | succ limit ih =>
    obtain _ | other := other
    · exact .none coveredTwin
    unfold upTo
    apply (decides count).bind
    intro a b left bound read
    obtain ⟨rfl, opened⟩ := read
    cases b with
    | true => exact .pure rfl
    | false =>
      apply (steps left (opened rfl) bound).bind
      intro first twin fewer _ read
      obtain ⟨rfl, shorter⟩ := read
      apply (ih (by omega) (by omega) fun rest opened less => steps rest opened (by omega)).bind
      intro others twins _ _ same
      exact .pure (by rw [same, List.map_append])

private theorem settle_row (skipped : Token) {first second : List Token} (row : Row lines count first second) :
    ∃ left rest twin, left ≤ count ∧ settle skipped first = some rest ∧
      settle (skipped.shift lines) second = some twin ∧ Row lines left rest twin := by
  induction row generalizing skipped with
  | @last token first second ends =>
    have stops : settle skipped (token :: first) = some (token :: first) := by simp [settle, ends]
    have stopsTwin : settle (skipped.shift lines) (token.shift lines :: second) =
        some (token.shift lines :: second) := by simp [settle, Token.shift, ends]
    exact ⟨1, _, _, Nat.le_refl _, stops, stopsTwin, .last first second ends⟩
  | @more count token first second inside behind ih =>
    by_cases found : token.symbol = .endOfText || skipped.symbol = .newline || token.symbol.opensStatement
    · exact ⟨count + 1, _, _, Nat.le_refl _, if_pos found, if_pos found, .more inside behind⟩
    · obtain ⟨left, rest, twin, less, settled, settledTwin, row⟩ := ih token
      exact ⟨left, rest, twin, Nat.le_succ_of_le less, (if_neg found).trans settled,
        (if_neg found).trans settledTwin, row⟩

private theorem skipBroken_row {first second : List Token} (row : Row lines count first second) :
    ∃ left rest twin, left ≤ count ∧ (1 < count → left < count) ∧ skipBroken first = some rest ∧
      skipBroken second = some twin ∧ Row lines left rest twin := by
  cases row with
  | last first second ends =>
    exact ⟨1, _, _, Nat.le_refl _, fun further => further, if_pos ends, if_pos ends,
      .last first second ends⟩
  | @more count token first second inside behind =>
    obtain ⟨left, rest, twin, less, settled, settledTwin, row⟩ := settle_row token behind
    exact ⟨left, rest, twin, Nat.le_succ_of_le less, fun _ => Nat.lt_succ_of_le less,
      (if_neg inside).trans settled, (if_neg inside).trans settledTwin, row⟩

private theorem agrees_recovering {step second : Reader (List α)} {move : α → α} (opened : 1 < count)
    (agrees : Agrees lines count step second fun a b left => b = a.map move ∧ left < count) :
    Agrees lines count (recovering step) (recovering second) fun a b left =>
      b = a.map move ∧ left < count := by
  intro left right reports row
  have alike := agrees left right reports row
  unfold recovering
  generalize step ⟨left, reports⟩ = result at alike ⊢
  generalize second ⟨right, reports.map (.shift lines)⟩ = copy at alike ⊢
  cases alike with
  | ok less row read => exact .ok less row read
  | @broken left first second reports less row =>
    obtain ⟨rest, tokens, twin, fewer, progress, found, foundTwin, behind⟩ := skipBroken_row row
    simp only [found, foundTwin]
    have shorter : rest < count := by
      by_cases ended : 1 < left
      · exact Nat.lt_of_lt_of_le (progress ended) less
      · omega
    exact .ok (Nat.le_of_lt shorter) behind ⟨rfl, shorter⟩

end Reader

open Reader

section Expressions

variable {lines : Int} {count limit other : Nat} {inner twin : Reader Node}

def Taking (lines : Int) (count : Nat) (first second : Node) (left : Nat) : Prop :=
  second = first.shift lines ∧ left < count

private theorem agrees_leftGrouped {make : Node → Token → Node → Node} (accepts : Symbol → Bool) {left : Node}
    (moves : ∀ left operator right,
      make (left.shift lines) (operator.shift lines) (right.shift lines) =
        (make left operator right).shift lines)
    (covered : count ≤ limit) (coveredTwin : count ≤ other)
    (operands : AgreesBelow lines count inner twin fun first second _ => second = first.shift lines) :
    Agrees lines count (leftGrouped make accepts inner limit left)
      (leftGrouped make accepts twin other (left.shift lines))
      fun first second _ => second = first.shift lines := by
  induction limit generalizing count other left with
  | zero => exact .none covered
  | succ limit ih =>
    obtain _ | other := other
    · exact .none coveredTwin
    unfold leftGrouped
    apply (agrees_take? accepts).bind
    intro found moved rest _ read
    obtain ⟨rfl, shorter⟩ := read
    cases found with
    | none => exact .pure rfl
    | some operator =>
      have less := shorter rfl
      apply (operands rest less).bind
      intro right moved fewer bound same
      rw [same, moves]
      exact ih (by omega) (by omega) (operands.shorter (by omega))

private theorem agrees_level {make : Node → Token → Node → Node} (accepts : Symbol → Bool)
    (moves : ∀ left operator right,
      make (left.shift lines) (operator.shift lines) (right.shift lines) =
        (make left operator right).shift lines)
    (covered : count ≤ limit) (coveredTwin : count ≤ other)
    (operands : ∀ left, left ≤ count → Agrees lines left inner twin (Taking lines left)) :
    Agrees lines count (level make accepts limit inner) (level make accepts other twin)
      (Taking lines count) := by
  apply (operands count (Nat.le_refl _)).bind
  intro first second left bound read
  obtain ⟨rfl, less⟩ := read
  have inside : AgreesBelow lines left inner twin fun first second _ => second = first.shift lines :=
    fun fewer shorter => (operands fewer (by omega)).mono fun _ _ _ _ read => read.1
  apply (agrees_leftGrouped accepts moves (by omega) (by omega) inside).mono
  intro first second rest bound same
  exact ⟨same, by omega⟩

variable (inside : AgreesBelow lines count inner twin fun first second _ => second = first.shift lines)
include inside

private theorem agrees_primary : Agrees lines count (primary inner) (primary twin) (Taking lines count) := by
  apply (agrees_expectAny _ _).bind
  intro token moved left _ read
  obtain ⟨rfl, less⟩ := read
  dsimp only [Token.shift]
  split
  · exact .pure ⟨rfl, less⟩
  · exact .pure ⟨rfl, less⟩
  · exact .pure ⟨rfl, less⟩
  · apply (inside left less).bind
    intro body moved fewer bound same
    apply (agrees_expect _ _).bind
    intro _ _ rest shorter _
    exact .pure ⟨by rw [same]; rfl, by omega⟩
  · exact .pure ⟨rfl, less⟩

private theorem agrees_operand (covered : count ≤ limit) (coveredTwin : count ≤ other) :
    Agrees lines count (operand inner limit) (operand twin other) (Taking lines count) := by
  induction limit generalizing count other with
  | zero => exact .none covered
  | succ limit ih =>
    obtain _ | other := other
    · exact .none coveredTwin
    unfold operand
    apply (agrees_take? isUnary).bind
    intro found moved left bound read
    obtain ⟨rfl, shorter⟩ := read
    cases found with
    | none =>
      apply (agrees_primary (inside.shorter bound)).mono
      intro first second rest _ read
      exact ⟨read.1, Nat.lt_of_lt_of_le read.2 bound⟩
    | some operator =>
      have less := shorter rfl
      apply (ih (inside.shorter (by omega)) (by omega) (by omega)).bind
      intro right moved rest _ read
      obtain ⟨rfl, fewer⟩ := read
      exact .pure ⟨rfl, by omega⟩

private theorem agrees_disjunction (covered : count ≤ limit) (coveredTwin : count ≤ other) :
    Agrees lines count (disjunction inner limit) (disjunction twin other) (Taking lines count) := by
  have unary (left : Nat) (less : left ≤ count) :
      Agrees lines left (operand inner limit) (operand twin other) (Taking lines left) :=
    agrees_operand (inside.shorter less) (by omega) (by omega)
  have product (left : Nat) (less : left ≤ count) :
      Agrees lines left (product inner limit) (product twin other) (Taking lines left) :=
    agrees_level isProduct (fun _ _ _ => rfl) (by omega) (by omega) fun fewer bound => unary fewer (by omega)
  have sum (left : Nat) (less : left ≤ count) :
      Agrees lines left (sum inner limit) (sum twin other) (Taking lines left) :=
    agrees_level isSum (fun _ _ _ => rfl) (by omega) (by omega) fun fewer bound => product fewer (by omega)
  have comparison (left : Nat) (less : left ≤ count) :
      Agrees lines left (comparison inner limit) (comparison twin other) (Taking lines left) :=
    agrees_level isComparison (fun _ _ _ => rfl) (by omega) (by omega) fun fewer bound =>
      sum fewer (by omega)
  have equality (left : Nat) (less : left ≤ count) :
      Agrees lines left (equality inner limit) (equality twin other) (Taking lines left) :=
    agrees_level isEquality (fun _ _ _ => rfl) (by omega) (by omega) fun fewer bound =>
      comparison fewer (by omega)
  have conjunction (left : Nat) (less : left ≤ count) :
      Agrees lines left (conjunction inner limit) (conjunction twin other) (Taking lines left) :=
    agrees_level (· = .andWord) (fun _ _ _ => rfl) (by omega) (by omega) fun fewer bound =>
      equality fewer (by omega)
  exact agrees_level (· = .orWord) (fun _ _ _ => rfl) covered coveredTwin conjunction

end Expressions

variable {lines : Int}

theorem agrees_expression (limit other : Nat) {count : Nat} (covered : count ≤ limit)
    (coveredTwin : count ≤ other) :
    Agrees lines count (expression limit) (expression other) (Taking lines count) := by
  induction limit generalizing count other with
  | zero => exact .none covered
  | succ limit ih =>
    obtain _ | other := other
    · exact .none coveredTwin
    have inside : AgreesBelow lines count (expression limit) (expression other) fun first second _ =>
        second = first.shift lines :=
      fun left less => (ih other (by omega) (by omega)).mono fun _ _ _ _ read => read.1
    unfold expression
    apply (agrees_disjunction inside covered coveredTwin).bind
    intro target moved left bound read
    obtain ⟨rfl, less⟩ := read
    apply (agrees_take? (· = .equal)).bind
    intro found moved rest shorter read
    obtain ⟨rfl, _⟩ := read
    cases found with
    | none => exact .pure ⟨rfl, by omega⟩
    | some equals =>
      apply (inside rest (by omega)).bind
      intro value moved fewer bound same
      subst same
      -- Only what stands before the sign decides between the two.
      cases target
      case reference name => exact .pure ⟨rfl, by omega⟩
      all_goals
        refine (agrees_report (.atToken equals "Invalid assignment target.")).bind ?_
        intro _ _ last _ _
        exact .pure ⟨rfl, by omega⟩

section Parts

variable {count limit other : Nat} {expression expressionTwin : Reader Node}
  (expressions : ∀ left, left ≤ count → Agrees lines left expression expressionTwin (Taking lines left))

def moveItem (lines : Int) (item : Token × Node) : Token × Node := (item.1.shift lines, item.2.shift lines)

section Lists

include expressions

private theorem agrees_variableItem :
    Agrees lines count (variableItem expression) (variableItem expressionTwin) fun item twin left =>
      twin = moveItem lines item ∧ left < count := by
  apply (agrees_expect _ _).bind
  intro name moved left _ read
  obtain ⟨rfl, less⟩ := read
  apply (agrees_accept _).bind
  intro found moved rest bound read
  obtain ⟨rfl, _⟩ := read
  cases moved with
  | false => exact .pure ⟨rfl, by omega⟩
  | true =>
    apply (expressions rest (by omega)).bind
    intro value moved fewer _ read
    obtain ⟨rfl, _⟩ := read
    exact .pure ⟨rfl, by omega⟩

private theorem agrees_sharedType {ending twin : Reader Unit} (covered : count ≤ limit)
    (coveredTwin : count ≤ other) (endings : ∀ left, Agrees lines left ending twin fun _ _ _ => True) :
    Agrees lines count (sharedType expression limit ending) (sharedType expressionTwin other twin)
      fun nodes moved left => moved = nodes.map (Node.shift lines) ∧ left < count := by
  apply (agrees_variableItem expressions).bind
  intro first moved left _ read
  obtain ⟨rfl, less⟩ := read
  have items : AgreesBelow lines left (variableItem expression) (variableItem expressionTwin)
      fun item twin _ => twin = moveItem lines item :=
    fun fewer shorter =>
      (agrees_variableItem fun rest bound => expressions rest (by omega)).mono fun _ _ _ _ read => read.1
  apply (agrees_afterCommas (by omega) (by omega) items).bind
  intro others moved rest bound same
  subst same
  apply (agrees_expect _ _).bind
  intro _ _ behind _ _
  apply (agrees_expectAny _ _).bind
  intro dataType moved last _ read
  obtain ⟨rfl, _⟩ := read
  apply (endings last).bind
  intro _ _ final _ _
  refine .pure ⟨?_, by omega⟩
  rw [← List.map_cons, List.map_map, List.map_map]
  rfl

private theorem agrees_declarationLine (covered : count ≤ limit) (coveredTwin : count ≤ other) :
    Agrees lines count (declarationLine expression limit) (declarationLine expressionTwin other)
      fun nodes moved left => moved = nodes.map (Node.shift lines) ∧ left < count :=
  agrees_sharedType expressions covered coveredTwin fun _ => agrees_endLine _

private theorem agrees_outputLine :
    Agrees lines count (outputLine expression) (outputLine expressionTwin) (Taking lines count) := by
  apply (expressions count (Nat.le_refl _)).bind
  intro body moved left _ read
  obtain ⟨rfl, less⟩ := read
  apply (agrees_endLine _).bind
  intro _ _ rest _ _
  exact .pure ⟨rfl, by omega⟩

private theorem agrees_expressionLine :
    Agrees lines count (expressionLine expression) (expressionLine expressionTwin) (Taking lines count) := by
  apply (expressions count (Nat.le_refl _)).bind
  intro body moved left _ read
  obtain ⟨rfl, less⟩ := read
  apply (agrees_endLine _).bind
  intro _ _ rest _ _
  exact .pure ⟨rfl, by omega⟩

end Lists

private theorem agrees_inputLine (covered : count ≤ limit) (coveredTwin : count ≤ other) :
    Agrees lines count (inputLine limit) (inputLine other) (Taking lines count) := by
  apply (agrees_expect _ _).bind
  intro first moved left _ read
  obtain ⟨rfl, less⟩ := read
  have names : AgreesBelow lines left (expect .identifier "Expect variable name after ','.")
      (expect .identifier "Expect variable name after ','.") fun name twin _ => twin = name.shift lines :=
    fun _ _ => (agrees_expect _ _).mono fun _ _ _ _ read => read.1
  apply (agrees_afterCommas (by omega) (by omega) names).bind
  intro others moved rest _ same
  subst same
  apply (agrees_endLine _).bind
  intro _ _ last _ _
  exact .pure ⟨rfl, by omega⟩

private theorem countingLoop_shift (start : List Node) (condition step : Option Node) (body : Node) :
    countingLoop (start.map (Node.shift lines)) (condition.map (Node.shift lines))
      (step.map (Node.shift lines)) (body.shift lines) =
      (countingLoop start condition step body).shift lines := by
  cases start <;> cases condition <;> cases step <;>
    simp [countingLoop, Node.shift, Node.shiftAll, Node.shiftAll_eq_map]

section Lists

include expressions

private theorem agrees_countingStart (covered : count ≤ limit) (coveredTwin : count ≤ other) :
    Agrees lines count (countingStart expression limit) (countingStart expressionTwin other)
      fun nodes moved _ => moved = nodes.map (Node.shift lines) := by
  apply (agrees_accept _).bind
  intro found moved left bound read
  obtain ⟨rfl, _⟩ := read
  cases moved with
  | true => exact .pure rfl
  | false =>
    apply (agrees_accept _).bind
    intro found moved rest shorter read
    obtain ⟨rfl, _⟩ := read
    have inner (fewer : Nat) (less : fewer ≤ rest) :
        Agrees lines fewer expression expressionTwin (Taking lines fewer) :=
      expressions fewer (by omega)
    cases moved with
    | true =>
      refine (agrees_sharedType inner (by omega) (by omega) ?_).mono fun _ _ _ _ read => read.1
      intro fewer
      exact (agrees_expect _ _).bind fun _ _ _ _ _ => .pure trivial
    | false =>
      apply (inner rest (Nat.le_refl _)).bind
      intro body moved fewer _ read
      obtain ⟨rfl, _⟩ := read
      apply (agrees_expect _ _).bind
      intro _ _ _ _ _
      exact .pure rfl

private theorem agrees_unlessAt (symbol : Symbol) :
    Agrees lines count (unlessAt expression symbol) (unlessAt expressionTwin symbol)
      fun body moved _ => moved = body.map (Node.shift lines) := by
  apply (agrees_at? symbol).bind
  intro found moved left bound same
  subst same
  cases moved with
  | true => exact .pure rfl
  | false =>
    apply (expressions left bound).bind
    intro body moved rest _ read
    obtain ⟨rfl, _⟩ := read
    exact .pure rfl

private theorem agrees_countingStep :
    Agrees lines count (countingStep expression) (countingStep expressionTwin)
      fun body moved _ => moved = body.map (Node.shift lines) := by
  apply (agrees_unlessAt expressions .rightParen).bind
  intro body moved left bound same
  subst same
  cases body with
  | none => exact .pure rfl
  | some body =>
    apply (agrees_accept _).bind
    intro _ _ rest _ _
    exact .pure rfl

end Lists

section Nested

variable {statement twin : Reader Node}
  (statements : ∀ left, left ≤ count → Agrees lines left statement twin (Taking lines left))
include expressions statements

omit statements in
private theorem agrees_condition {next nextTwin : Node → Reader Node} (before behind after : String)
    (onward : ∀ condition left, left < count →
      Agrees lines left (next condition) (nextTwin (condition.shift lines)) (Taking lines left)) :
    Agrees lines count
      (do
        let _ ← expect .leftParen before
        let condition ← expression
        let _ ← expect .rightParen behind
        let _ ← expect .newline after
        next condition)
      (do
        let _ ← expect .leftParen before
        let condition ← expressionTwin
        let _ ← expect .rightParen behind
        let _ ← expect .newline after
        nextTwin condition) (Taking lines count) := by
  apply (agrees_expect _ _).bind
  intro _ _ opened less read
  have shorter := read.2
  apply (expressions opened less).bind
  intro condition moved tested _ read
  obtain ⟨rfl, _⟩ := read
  apply (agrees_expect _ _).bind
  intro _ _ closed _ _
  apply (agrees_expect _ _).bind
  intro _ _ ended _ _
  apply (onward condition ended (by omega)).mono
  intro node moved left _ read
  exact ⟨read.1, by omega⟩

private theorem agrees_branchLines :
    Agrees lines count (branchLines expression statement) (branchLines expressionTwin twin)
      (Taking lines count) := by
  apply agrees_condition expressions
  intro condition left less
  apply (statements left (by omega)).bind
  intro thenBranch moved rest _ read
  obtain ⟨rfl, shorter⟩ := read
  apply (agrees_accept _).bind
  intro found moved behind _ read
  obtain ⟨rfl, _⟩ := read
  cases moved with
  | false => exact .pure ⟨rfl, by omega⟩
  | true =>
    apply (agrees_expect _ _).bind
    intro _ _ ended _ _
    apply (statements ended (by omega)).bind
    intro elseBranch moved last _ read
    obtain ⟨rfl, _⟩ := read
    exact .pure ⟨rfl, by omega⟩

private theorem agrees_loopLines :
    Agrees lines count (loopLines expression statement) (loopLines expressionTwin twin)
      (Taking lines count) := by
  apply agrees_condition expressions
  intro condition left less
  apply (statements left (by omega)).bind
  intro body moved rest _ read
  obtain ⟨rfl, shorter⟩ := read
  exact .pure ⟨rfl, shorter⟩

private theorem agrees_countingLines (covered : count ≤ limit) (coveredTwin : count ≤ other) :
    Agrees lines count (countingLines expression limit statement)
      (countingLines expressionTwin other twin) (Taking lines count) := by
  apply (agrees_expect _ _).bind
  intro _ _ opened less _
  have inner (left : Nat) (shorter : left ≤ opened) :
      Agrees lines left expression expressionTwin (Taking lines left) :=
    expressions left (by omega)
  apply (agrees_countingStart inner (by omega) (by omega)).bind
  intro start moved started_ less₁ same
  subst same
  apply (agrees_unlessAt (fun left shorter => inner left (by omega)) _).bind
  intro condition moved tested less₂ same
  subst same
  apply (agrees_expect _ _).bind
  intro _ _ parted less₃ read
  have shorter := read.2
  apply (agrees_countingStep fun left shorter => inner left (by omega)).bind
  intro step moved stepped_ less₄ same
  subst same
  apply (agrees_expect _ _).bind
  intro _ _ closed less₅ _
  apply (agrees_expect _ _).bind
  intro _ _ ended less₆ _
  apply (statements ended (by omega)).bind
  intro body moved left _ read
  obtain ⟨rfl, fewer⟩ := read
  exact .pure ⟨countingLoop_shift start condition step body, by omega⟩

theorem agrees_declaration (opened : 1 < count) (covered : count ≤ limit) (coveredTwin : count ≤ other) :
    Agrees lines count (declaration expression limit statement) (declaration expressionTwin other twin)
      fun nodes moved left => moved = nodes.map (Node.shift lines) ∧ left < count := by
  apply agrees_recovering opened
  apply (agrees_accept _).bind
  intro found moved left bound read
  obtain ⟨rfl, _⟩ := read
  cases moved with
  | true =>
    apply (agrees_declarationLine (fun rest less => expressions rest (by omega)) (by omega) (by omega)).mono
    intro nodes moved rest _ read
    exact ⟨read.1, by omega⟩
  | false =>
    apply (statements left bound).bind
    intro node moved rest _ read
    obtain ⟨rfl, less⟩ := read
    exact .pure ⟨rfl, by omega⟩

private theorem agrees_lines {done : Reader Bool} (covered : count ≤ limit) (coveredTwin : count ≤ other)
    (decides : ∀ left, Agrees lines left done done fun a b rest => b = a ∧ (a = false → 1 < rest)) :
    Agrees lines count (upTo done (declaration expression limit statement) limit)
      (upTo done (declaration expressionTwin other twin) other)
      fun nodes moved _ => moved = nodes.map (Node.shift lines) := by
  refine agrees_upTo covered coveredTwin decides fun left opened less => ?_
  exact agrees_declaration (fun rest shorter => expressions rest (by omega))
    (fun rest shorter => statements rest (by omega)) opened (by omega) (by omega)

private theorem agrees_blockLines (covered : count ≤ limit) (coveredTwin : count ≤ other) :
    Agrees lines count (blockLines expression limit statement) (blockLines expressionTwin other twin)
      (Taking lines count) := by
  have decides (left : Nat) : Agrees lines left (do return (← at? .stop) || (← atEnd))
      (do return (← at? .stop) || (← atEnd)) fun a b rest => b = a ∧ (a = false → 1 < rest) := by
    apply (agrees_at? _).bind
    intro here moved rest _ same
    subst same
    apply agrees_atEnd.bind
    intro finished moved last _ read
    obtain ⟨rfl, further⟩ := read
    refine .pure ⟨rfl, fun open_ => further ?_⟩
    exact (Bool.or_eq_false_iff.mp open_).2
  apply (agrees_endLine _).bind
  intro _ _ opened less _
  apply (agrees_lines (fun left shorter => expressions left (by omega))
    (fun left shorter => statements left (by omega)) (by omega) (by omega) decides).bind
  intro body moved rest _ same
  subst same
  apply (agrees_expect _ _).bind
  intro _ _ stopped _ read
  have shorter := read.2
  apply (agrees_endLine _).bind
  intro _ _ left _ _
  refine .pure ⟨?_, by omega⟩
  rw [Node.shift, Node.shiftAll_eq_map]

end Nested

end Parts

theorem agrees_statement (limit other : Nat) {count : Nat} (covered : count ≤ limit)
    (coveredTwin : count ≤ other) :
    Agrees lines count (statement limit) (statement other) (Taking lines count) := by
  induction limit generalizing count other with
  | zero => exact .none covered
  | succ limit ih =>
    obtain _ | other := other
    · exact .none coveredTwin
    unfold statement
    apply (agrees_take? startsLines).bind
    intro found moved left bound read
    obtain ⟨rfl, shorter⟩ := read
    have expressions (rest : Nat) (less : rest ≤ left) :
        Agrees lines rest (expression (limit + 1)) (expression (other + 1)) (Taking lines rest) :=
      agrees_expression (limit + 1) (other + 1) (by omega) (by omega)
    have wider (node moved : Node) (rest : Nat) (_ : rest ≤ left)
        (read : Taking lines left node moved rest) : Taking lines count node moved rest :=
      ⟨read.1, Nat.lt_of_lt_of_le read.2 bound⟩
    cases found with
    | none => exact (agrees_expressionLine expressions).mono wider
    | some word =>
      have less := shorter rfl
      have statements (rest : Nat) (fewer : rest ≤ left) :
          Agrees lines rest (statement limit) (statement other) (Taking lines rest) :=
        ih other (by omega) (by omega)
      have same : ((word.shift lines).symbol) = word.symbol := rfl
      simp only [Option.map_some, same]
      split
      · exact (agrees_outputLine expressions).mono wider
      · exact (agrees_inputLine (by omega) (by omega)).mono wider
      · exact (agrees_branchLines expressions statements).mono wider
      · exact (agrees_loopLines expressions statements).mono wider
      · exact (agrees_countingLines expressions statements (by omega) (by omega)).mono wider
      · exact (agrees_blockLines expressions statements (by omega) (by omega)).mono wider
      · exact (agrees_expressionLine expressions).mono wider

def readWithin? (limit : Nat) (tokens : List Token) : Option Program :=
  match reader limit ⟨tokens, []⟩ with
  | .ok statements position => some ⟨statements, position.reports⟩
  | .error _ _ => none

section Rows

variable {count limit other : Nat} {first second : List Token}

private theorem readWithin?_row (row : Row lines count first second) (covered : count ≤ limit)
    (coveredTwin : count ≤ other) :
    readWithin? other second = (readWithin? limit first).map fun program =>
      ⟨program.statements.map (Node.shift lines), program.diagnostics.map (.shift lines)⟩ := by
  have agrees : Agrees lines count (reader limit) (reader other)
      fun nodes moved _ => moved = nodes.map (Node.shift lines) :=
    agrees_lines (fun left less => agrees_expression _ _ (by omega) (by omega))
      (fun left less => agrees_statement _ _ (by omega) (by omega)) covered coveredTwin
      fun left => agrees_atEnd
  have alike := agrees first second [] row
  unfold readWithin?
  rw [List.map_nil] at alike
  generalize reader limit ⟨first, []⟩ = result at alike ⊢
  generalize reader other ⟨second, []⟩ = twin at alike ⊢
  cases alike with
  | ok less row same => rw [same]; rfl
  | broken less row => rfl

theorem ofTokens?_row (row : Row lines count first second) :
    ofTokens? second = (ofTokens? first).map fun program =>
      ⟨program.statements.map (Node.shift lines), program.diagnostics.map (.shift lines)⟩ :=
  readWithin?_row row row.covered.1 row.covered.2

theorem readWithin?_same (row : Row 0 count first second) (covered : count ≤ limit)
    (coveredTwin : count ≤ other) : readWithin? other second = readWithin? limit first := by
  have still : (fun program : Program =>
      (⟨program.statements.map (Node.shift 0), program.diagnostics.map (.shift 0)⟩ : Program)) = id := by
    funext program
    rw [← Node.shiftAll_eq_map, Node.shiftAll_zero, funext Diagnostic.shift_zero, List.map_id']
    rfl
  rw [readWithin?_row row covered coveredTwin, still, Option.map_id, id]

end Rows

end Cfpl.Program
