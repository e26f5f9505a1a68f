import Cfpl.Program.Statement
import Cfpl.Proofs.Reading.Expression
import Cfpl.Proofs.Reading.Loop

/-! Statements that are read belong to the grammar. Whatever is reported, the nodes are statements made
of the tokens taken; if nothing is reported, the tokens taken are derived as these nodes, where the end
of the text may stand for the last line feed and each `ELSE` belongs to the nearest condition. -/

namespace Cfpl.Program

open Reader Grammar

def Whole (newline : Token) (taken rest full : List Token) : Prop :=
  full = taken ∨ full = taken ++ [newline] ∧ AtEnd rest

theorem Whole.behind {newline : Token} {taken rest full : List Token}
    (whole : Whole newline taken rest full) (before : List Token) :
    Whole newline (before ++ taken) rest (before ++ full) := by
  rcases whole with rfl | ⟨rfl, finished⟩
  · exact .inl rfl
  · exact .inr ⟨(List.append_assoc _ _ _).symm, finished⟩

theorem Whole.followed {newline : Token} {taken rest full more left : List Token}
    (whole : Whole newline taken rest full) (moved : Taken rest more left) (some_ : more ≠ []) :
    full = taken := by
  rcases whole with same | ⟨_, finished⟩
  · exact same
  · exact absurd (moved.eq_nil_of_atEnd finished) some_

private theorem does_lineEnd {newline : Token} {input : List Token} (feed : newline.symbol = .newline)
    (message : String) :
    Does (endLine message) input fun taken new _ rest =>
      new = [] ∧ ∃ last, last.symbol = .newline ∧ Whole newline taken rest [last] := by
  apply (does_endLine message).mono
  intro taken new _ rest _ read
  obtain ⟨rfl, ⟨last, rfl, symbol⟩ | ⟨rfl, finished⟩⟩ := read
  · exact ⟨rfl, last, symbol, .inl rfl⟩
  · exact ⟨rfl, newline, feed, .inr ⟨rfl, finished⟩⟩

structure ItemReadAs (taken : List Token) (new : List Diagnostic) (item : Token × Node) : Prop where
  held : item.1 ∈ taken
  name : item.1.symbol = .identifier
  initial : item.2 = .absent ∨ item.2.ExpressionFrom (· ∈ taken)
  derived : new = [] → Item taken item.1 item.2

structure TypedAs (taken : List Token) (new : List Diagnostic) (nodes : List Node) : Prop where
  made : ∀ node ∈ nodes, node.StatementFrom (· ∈ taken)
  derived : new = [] → ∀ word : Token, word.symbol = .varWord → Declarations (word :: taken) nodes

theorem ItemReadAs.items {first rest : List Token} {new newer : List Diagnostic} {item : Token × Node}
    {others : List (Token × Node)} (read : ItemReadAs first new item)
    (separated : Separated ItemReadAs rest newer others) (quiet : new ++ newer = []) :
    Items (first ++ rest) (item :: others) := by
  obtain ⟨rfl, later⟩ := List.append_eq_nil_iff.mp quiet
  induction separated generalizing first item with
  | done => simpa using Items.single (read.derived rfl)
  | more isComma next _ ih =>
    obtain ⟨rfl, rfl⟩ := List.append_eq_nil_iff.mp later
    simpa using Items.more (read.derived rfl) isComma (ih rfl next rfl)

theorem Reader.Separated.forall {α : Type} {good : List Token → List Diagnostic → α → Prop}
    {taken : List Token} {new : List Diagnostic} {as : List α} (separated : Separated good taken new as) :
    ∀ a ∈ as, ∃ part new, part ⊆ taken ∧ good part new a := by
  induction separated with
  | done => exact List.forall_mem_nil _
  | @more comma first rest new _ a _ _ read _ ih =>
    intro b member
    rcases List.mem_cons.mp member with rfl | later
    · exact ⟨first, new, by simp, read⟩
    · obtain ⟨part, some_, within, good⟩ := ih b later
      exact ⟨part, some_, fun token held => by simp [within held], good⟩

theorem ItemReadAs.declares {part taken : List Token} {new : List Diagnostic} {item : Token × Node}
    {dataType : Token} (read : ItemReadAs part new item) (within : part ⊆ taken)
    (held : dataType ∈ taken) (typed : dataType.symbol.isDataType) :
    (Node.declare item.1 item.2 (some dataType)).StatementFrom (· ∈ taken) := by
  refine .declare (within read.held) read.name held typed ?_
  exact read.initial.imp_right fun from_ => from_.mono fun token member => within member

section Parts

variable {expression : Reader Node} {input : List Token} {limit : Nat}

variable (expressions : DoesBelow input.length expression fun taken new node _ =>
    ReadAs .assignment taken new node)
include expressions

private theorem does_variableItem :
    Does (variableItem expression) input fun taken new item _ => ItemReadAs taken new item := by
  apply (does_expect _ _).bind
  intro _ _ name rest moved read
  obtain ⟨rfl, rfl, symbol⟩ := read
  apply (does_accept _).bind
  intro more newer found left further read
  obtain ⟨rfl, held⟩ := read
  cases found with
  | false =>
    obtain ⟨rfl, _⟩ := held
    exact .pure ⟨by simp, symbol, .inl rfl, fun _ => .plain symbol⟩
  | true =>
    obtain ⟨equals, rfl, isEqual⟩ := by simpa using held
    have shorter := moved.length_one
    have shrunk := further.length_one
    apply (expressions left (by omega)).bind
    intro others newest value last _ read
    refine .pure ⟨by simp, symbol, .inr (read.made.mono fun token member => by simp [member]), ?_⟩
    intro quiet
    simpa using Item.initialized symbol isEqual (read.derived (by simpa using quiet))

private theorem does_sharedType {ending : Reader Unit} {closes : List Token → List Token → Prop}
    (covered : input.length ≤ limit)
    (endings : DoesBelow input.length ending fun taken new _ rest => new = [] ∧ closes taken rest) :
    Does (sharedType expression limit ending) input fun taken new nodes rest =>
      ∃ typed last, taken = typed ++ last ∧ typed ≠ [] ∧ closes last rest ∧ TypedAs typed new nodes := by
  apply (does_variableItem expressions).bind
  intro taken new first rest moved read
  have shorter := moved.length
  have positive := List.length_pos_of_mem read.held
  have items : DoesBelow rest.length (variableItem expression) fun taken new item _ =>
      ItemReadAs taken new item :=
    fun other less => does_variableItem (expressions.shorter (by omega))
  apply (does_afterCommas limit (by omega) items).bind
  intro more newer others left further separated
  have shrunk := further.length
  apply (does_expect _ _).bind
  intro _ _ asWord after third read
  obtain ⟨rfl, rfl, isAs⟩ := read
  apply (does_expectAny _ _).bind
  intro _ _ dataType behind fourth read
  obtain ⟨rfl, rfl, typed⟩ := read
  have lessOne := third.length_one
  have lessTwo := fourth.length_one
  apply (endings behind (by omega)).bind
  intro last _ _ end_ _ read
  obtain ⟨rfl, closed⟩ := read
  refine .pure ⟨taken ++ more ++ [asWord, dataType], last, by simp, by simp, closed, ?_, ?_⟩
  · intro node member
    obtain ⟨item, listed, rfl⟩ := List.mem_map.mp member
    rcases List.mem_cons.mp listed with rfl | later
    · exact read.declares (fun token held => by simp [held]) (by simp) typed
    · obtain ⟨part, _, within, good⟩ := separated.forall item later
      exact good.declares (fun token held => by simp [within held]) (by simp) typed
  · intro quiet word isVar
    have items := read.items separated (by simpa using quiet)
    simpa using Declarations.typed isVar isAs typed items

end Parts

structure StatementReadAs (newline : Token) (taken : List Token) (new : List Diagnostic) (node : Node)
    (rest : List Token) : Prop where
  some_ : taken ≠ []
  made : node.StatementFrom (· ∈ taken)
  plain : ¬node.isDeclaration
  derived : new = [] → ∃ takesElse full, Whole newline taken rest full ∧
    Statement False takesElse full node ∧
    (takesElse → ∀ token ∈ rest.head?, token.symbol ≠ .elseWord)

structure LineReadAs (newline : Token) (taken : List Token) (new : List Diagnostic) (nodes : List Node)
    (rest : List Token) : Prop where
  made : ∀ node ∈ nodes, node.StatementFrom (· ∈ taken)
  derived : new = [] → ∃ full, Whole newline taken rest full ∧
    ∀ more others, Lines False more others → Lines False (full ++ more) (nodes ++ others)

structure LinesReadAs (newline : Token) (taken : List Token) (new : List Diagnostic) (nodes : List Node)
    (rest : List Token) : Prop where
  made : ∀ node ∈ nodes, node.StatementFrom (· ∈ taken)
  derived : new = [] → ∃ full, Whole newline taken rest full ∧ Lines False full nodes ∧
    (taken = [] → full = [])

namespace LinesReadAs

variable {newline : Token} {first more rest left : List Token} {new newer : List Diagnostic}
  {nodes others : List Node}

theorem done : LinesReadAs newline [] [] [] rest :=
  ⟨List.forall_mem_nil _, fun _ => ⟨[], .inl rfl, .done, fun _ => rfl⟩⟩

theorem behind (line : LineReadAs newline first new nodes left) (some_ : first ≠ [])
    (moved : Taken left more rest) (lines : LinesReadAs newline more newer others rest) :
    LinesReadAs newline (first ++ more) (new ++ newer) (nodes ++ others) rest := by
  refine ⟨?_, fun quiet => ?_⟩
  · intro node member
    rcases List.mem_append.mp member with early | late
    · exact (line.made node early).mono fun token held => List.mem_append_left _ held
    · exact (lines.made node late).mono fun token held => List.mem_append_right _ held
  · obtain ⟨rfl, rfl⟩ := List.append_eq_nil_iff.mp quiet
    obtain ⟨full, whole, extends_⟩ := line.derived rfl
    obtain ⟨later, wholeLater, derived, empty⟩ := lines.derived rfl
    rcases whole with rfl | ⟨rfl, finished⟩
    · refine ⟨full ++ later, wholeLater.behind full, extends_ later others derived, ?_⟩
      exact fun none => absurd (List.append_eq_nil_iff.mp none).1 some_
    · -- The end of the text stood for the last line feed, so there are no lines behind it.
      obtain rfl := moved.eq_nil_of_atEnd finished
      obtain rfl := empty rfl
      obtain rfl : left = rest := moved.split
      refine ⟨first ++ [newline], .inr ⟨by simp, finished⟩, by simpa using extends_ [] others derived, ?_⟩
      exact fun none => absurd (List.append_eq_nil_iff.mp none).1 some_

end LinesReadAs

structure StepReadAs (taken : List Token) (new : List Diagnostic) (body : Option Node) : Prop where
  made : ∀ node ∈ body, node.ExpressionFrom (· ∈ taken)
  derived : new = [] → Step taken body

structure StartReadAs (taken : List Token) (new : List Diagnostic) (nodes : List Node) : Prop where
  some_ : taken ≠ []
  made : ∀ node ∈ nodes, node.StatementFrom (· ∈ taken)
  derived : new = [] → Start taken nodes

theorem countingLoop_eq (start : List Node) (condition step : Option Node) (body : Node) :
    countingLoop start condition step body =
      started start (.loop (conditionOr condition) (stepped body step)) := by
  cases start <;> cases step <;> rfl

private theorem countingLoop_from {given : Token → Prop} {start : List Node} {condition step : Option Node}
    {body : Node} (startFrom : ∀ node ∈ start, node.StatementFrom given)
    (conditionFrom : ∀ node ∈ condition, node.ExpressionFrom given)
    (stepFrom : ∀ node ∈ step, node.ExpressionFrom given) (bodyFrom : body.StatementFrom given)
    (plain : ¬body.isDeclaration) :
    (countingLoop start condition step body).StatementFrom given ∧
      ¬(countingLoop start condition step body).isDeclaration := by
  have tested : (conditionOr condition).ExpressionFrom given := by
    cases condition with
    | none => exact .truth true
    | some condition => exact conditionFrom condition rfl
  have looped : (Node.loop (conditionOr condition) (stepped body step)).StatementFrom given := by
    cases step with
    | none => exact .loop tested bodyFrom plain
    | some step =>
      refine .loop tested (.block fun node member => ?_) (by simp [stepped, Node.isDeclaration])
      rcases List.mem_cons.mp member with rfl | last
      · exact bodyFrom
      · rw [List.mem_singleton.mp last]
        exact .expression (stepFrom step rfl)
  rw [countingLoop_eq]
  cases start with
  | nil => exact ⟨looped, by simp [started, Node.isDeclaration]⟩
  | cons first others =>
    refine ⟨.block fun node member => ?_, by simp [started, Node.isDeclaration]⟩
    rcases List.mem_append.mp member with early | last
    · exact startFrom node early
    · rw [List.mem_singleton.mp last]
      exact looped

section Lines

variable {newline : Token} (feed : newline.symbol = .newline) {expression statement : Reader Node}
  {input : List Token} {size limit : Nat} (less : input.length < size)
  (expressions : DoesBelow size expression fun taken new node _ => ReadAs .assignment taken new node)
  (statements : DoesBelow size statement fun taken new node rest =>
    StatementReadAs newline taken new node rest)

section Expressions

include feed less expressions

private theorem does_expressionLine : Does (expressionLine expression) input fun taken new node rest =>
    StatementReadAs newline taken new node rest := by
  apply (expressions input less).bind
  intro taken new body rest _ read
  apply (does_lineEnd feed _).bind
  intro ending _ _ left _ read
  obtain ⟨rfl, last, symbol, whole⟩ := read
  refine .pure ⟨by simp [read.some_], ?_, by simp [Node.isDeclaration], ?_⟩
  · exact .expression (read.made.mono fun token held => by simp [held])
  · intro quiet
    refine ⟨false, taken ++ [last], by simpa using whole.behind taken, ?_, by simp⟩
    exact .expression (read.derived (by simpa using quiet)) symbol

private theorem does_outputLine {word : Token} (isOutput : word.symbol = .outputWord) :
    Does (outputLine expression) input fun taken new node rest =>
      StatementReadAs newline (word :: taken) new node rest := by
  apply (expressions input less).bind
  intro taken new body rest _ read
  apply (does_lineEnd feed _).bind
  intro ending _ _ left _ read
  obtain ⟨rfl, last, symbol, whole⟩ := read
  refine .pure ⟨by simp, ?_, by simp [Node.isDeclaration], ?_⟩
  · exact .output (read.made.mono fun token held => by simp [held])
  · intro quiet
    refine ⟨false, word :: taken ++ [last], by simpa using whole.behind (word :: taken), ?_, by simp⟩
    exact .output isOutput (read.derived (by simpa using quiet)) symbol

private theorem does_declarationLine {word : Token} (isVar : word.symbol = .varWord)
    (covered : input.length ≤ limit) :
    Does (declarationLine expression limit) input fun taken new nodes rest =>
      LineReadAs newline (word :: taken) new nodes rest := by
  have endings : DoesBelow input.length (endLine "Expect line break after variable declaration.")
      fun taken new _ rest => new = [] ∧ ∃ last, last.symbol = .newline ∧ Whole newline taken rest [last] :=
    fun _ _ => does_lineEnd feed _
  apply (does_sharedType (expressions.shorter (by omega)) covered endings).mono
  intro taken new nodes rest _ read
  obtain ⟨typed, last, rfl, _, ⟨newline', symbol, whole⟩, read⟩ := read
  refine ⟨?_, fun quiet => ?_⟩
  · intro node member
    exact (read.made node member).mono fun token held => by simp [held]
  · refine ⟨word :: typed ++ [newline'], by simpa using whole.behind (word :: typed), ?_⟩
    intro more others lines
    simpa using Lines.declarations (read.derived quiet word isVar) symbol lines

omit feed in
private theorem does_countingStart (covered : input.length ≤ limit) :
    Does (countingStart expression limit) input fun taken new nodes _ =>
      StartReadAs taken new nodes := by
  apply (does_accept _).bind
  intro found _ present rest moved read
  cases present with
  | false =>
    obtain ⟨rfl, held⟩ := read
    obtain ⟨rfl, _⟩ := held
    obtain rfl : input = rest := moved.split
    apply (does_accept _).bind
    intro found _ present rest moved read
    cases present with
    | false =>
      obtain ⟨rfl, held⟩ := read
      obtain ⟨rfl, _⟩ := held
      obtain rfl : input = rest := moved.split
      apply (expressions input less).bind
      intro taken new body rest _ read
      apply (does_expect _ _).bind
      intro _ _ semicolon left _ read
      obtain ⟨rfl, rfl, closes⟩ := read
      refine .pure ⟨by simp, ?_, fun quiet => ?_⟩
      · intro node member
        rw [List.mem_singleton.mp member]
        exact .expression (read.made.mono fun token held => by simp [held])
      · simpa using Start.expression (read.derived (by simpa using quiet)) closes
    | true =>
      obtain ⟨rfl, held⟩ := read
      obtain ⟨word, rfl, isVar⟩ := by simpa using held
      have shorter := moved.length
      have endings : DoesBelow rest.length
          (do let _ ← expect .semicolon "Expect ';' after loop variable declaration.")
          fun taken new _ _ => new = [] ∧ ∃ semicolon, taken = [semicolon] ∧
            semicolon.symbol = .semicolon := by
        intro other _
        apply (does_expect _ _).bind
        intro _ _ semicolon left _ read
        obtain ⟨rfl, rfl, closes⟩ := read
        exact .pure ⟨rfl, semicolon, by simp, closes⟩
      apply (does_sharedType (expressions.shorter (by omega)) (by omega) endings).mono
      intro taken new nodes left _ read
      obtain ⟨typed, last, rfl, _, ⟨semicolon, rfl, closes⟩, read⟩ := read
      refine ⟨by simp, ?_, fun quiet => ?_⟩
      · intro node member
        exact (read.made node member).mono fun token held => by simp [held]
      · simpa using Start.declarations (read.derived (by simpa using quiet) word isVar) closes
  | true =>
    obtain ⟨rfl, held⟩ := read
    obtain ⟨semicolon, rfl, closes⟩ := by simpa using held
    refine .pure ⟨by simp, List.forall_mem_nil _, fun _ => ?_⟩
    simpa using Start.nothing closes

omit feed in
private theorem does_unlessAt (symbol : Symbol) : Does (unlessAt expression symbol) input
    fun taken new body _ => match body with
      | none => taken = [] ∧ new = []
      | some node => ReadAs .assignment taken new node := by
  apply (does_at? _).bind
  intro _ _ found rest moved read
  obtain ⟨rfl, rfl, _⟩ := read
  cases found with
  | false =>
    obtain rfl : input = rest := moved.split
    apply (expressions input less).bind
    intro taken new body rest _ read
    exact .pure (by simpa using read)
  | true =>
    exact .pure ⟨rfl, rfl⟩

omit feed in
private theorem does_countingStep : Does (countingStep expression) input
    fun taken new body _ => StepReadAs taken new body := by
  apply (does_unlessAt less expressions _).bind
  intro taken new found rest _ read
  cases found with
  | none =>
    obtain ⟨rfl, rfl⟩ := read
    exact .pure ⟨fun _ member => absurd member (Option.not_mem_none _), fun _ => .clause .nothing⟩
  | some node =>
    apply (does_accept _).bind
    intro more _ found left _ read
    obtain ⟨rfl, held⟩ := read
    refine .pure ⟨?_, fun quiet => ?_⟩
    · intro _ same
      cases same
      exact read.made.mono fun token held => List.mem_append_left _ held
    · have derived := read.derived (by simpa using quiet)
      cases found with
      | false =>
        obtain ⟨rfl, _⟩ := held
        simpa using Step.clause (.some derived)
      | true =>
        obtain ⟨last, rfl, isLast⟩ := by simpa using held
        simpa using Step.closed derived isLast

end Expressions

def NameReadAs (taken : List Token) (new : List Diagnostic) (name : Token) : Prop :=
  taken = [name] ∧ new = [] ∧ name.symbol = .identifier

private theorem names_of_separated {first : Token} {taken names : List Token} {new : List Diagnostic}
    (symbol : first.symbol = .identifier) (separated : Separated NameReadAs taken new names) :
    Names (first :: taken) (first :: names) := by
  induction separated generalizing first with
  | done => exact .single symbol
  | more isComma read _ ih =>
    obtain ⟨rfl, _, known⟩ := read
    exact .more symbol isComma (ih known)

private theorem does_inputLine {word : Token} (feed : newline.symbol = .newline)
    (isInput : word.symbol = .inputWord) (covered : input.length ≤ limit) :
    Does (inputLine limit) input fun taken new node rest =>
      StatementReadAs newline (word :: taken) new node rest := by
  apply (does_expect _ _).bind
  intro _ _ first rest moved read
  obtain ⟨rfl, rfl, symbol⟩ := read
  have shorter := moved.length_one
  have names : DoesBelow rest.length (expect .identifier "Expect variable name after ','.")
      fun taken new name _ => NameReadAs taken new name :=
    fun _ _ => does_expect _ _
  apply (does_afterCommas limit (by omega) names).bind
  intro more newer others left _ separated
  apply (does_lineEnd feed _).bind
  intro ending _ _ last _ read
  obtain ⟨rfl, end_, isEnd, whole⟩ := read
  refine .pure ⟨by simp, ?_, by simp [Node.isDeclaration], ?_⟩
  · refine .input (List.cons_ne_nil _ _) fun name member => ?_
    rcases List.mem_cons.mp member with rfl | later
    · exact ⟨by simp, symbol⟩
    · obtain ⟨part, _, within, rfl, rfl, known⟩ := separated.forall name later
      exact ⟨by simp [within (List.mem_singleton.mpr rfl)], known⟩
  · intro quiet
    refine ⟨false, word :: first :: more ++ [end_],
      by simpa using whole.behind (word :: first :: more), ?_, by simp⟩
    simpa using Statement.input isInput (names_of_separated symbol separated) isEnd

section Nested

include less expressions statements

omit statements in
private theorem does_condition {next : Node → Reader Node}
    {wanted : List Token → List Diagnostic → Node → List Token → Prop} (before behind after : String)
    (onward : ∀ opening tokens new condition closing feed rest, opening.symbol = .leftParen →
      ReadAs .assignment tokens new condition → closing.symbol = .rightParen → feed.symbol = .newline →
      Taken input (opening :: tokens ++ [closing, feed]) rest →
      Does (next condition) rest fun taken newer node left =>
        wanted (opening :: tokens ++ closing :: feed :: taken) (new ++ newer) node left) :
    Does (do
      let _ ← expect .leftParen before
      let condition ← expression
      let _ ← expect .rightParen behind
      let _ ← expect .newline after
      next condition) input wanted := by
  apply (does_expect _ _).bind
  intro _ _ opening rest₁ moved₁ opened
  obtain ⟨rfl, rfl, opens⟩ := opened
  have less₁ := moved₁.length
  apply (expressions rest₁ (by omega)).bind
  intro tokens new condition rest₂ moved₂ read
  apply (does_expect _ _).bind
  intro _ _ closing rest₃ moved₃ closed
  obtain ⟨rfl, rfl, closes⟩ := closed
  apply (does_expect _ _).bind
  intro _ _ feed rest₄ moved₄ fed
  obtain ⟨rfl, rfl, isFeed⟩ := fed
  have moved : Taken input (opening :: tokens ++ [closing, feed]) rest₄ := by
    simpa using moved₁.trans (moved₂.trans (moved₃.trans moved₄))
  apply (onward opening tokens new condition closing feed rest₄ opens read closes isFeed moved).mono
  intro taken newer node left _ held
  simpa using held

private theorem does_branchLines {word : Token} (isIf : word.symbol = .ifWord) :
    Does (branchLines expression statement) input fun taken new node rest =>
      StatementReadAs newline (word :: taken) new node rest := by
  apply does_condition less expressions
  intro opening tokens new condition closing feed rest opens read closes isFeed moved
  have shorter := moved.length
  apply (statements rest (by omega)).bind
  intro thenTokens newer thenBranch rest₁ moved₁ thenRead
  have less₁ := moved₁.length
  apply (does_accept _).bind
  intro found _ present rest₂ moved₂ read
  cases present with
  | false =>
    obtain ⟨rfl, held⟩ := read
    obtain ⟨rfl, noElse⟩ := held
    obtain rfl : rest₁ = rest₂ := moved₂.split
    refine .pure ⟨by simp, ?_, by simp [Node.isDeclaration], fun quiet => ?_⟩
    · refine .branch (read.made.mono ?_) (thenRead.made.mono ?_) thenRead.plain
      · exact fun token held => by simp [held]
      · exact fun token held => by simp [held]
    · obtain ⟨quiet, later⟩ : new = [] ∧ newer = [] := by simpa using quiet
      obtain ⟨takes, full, whole, derived, _⟩ := thenRead.derived later
      refine ⟨true, word :: opening :: tokens ++ closing :: feed :: full, ?_, ?_, fun _ => ?_⟩
      · simpa using whole.behind (word :: opening :: tokens ++ [closing, feed])
      · exact .branch isIf opens (read.derived quiet) closes isFeed derived
      · intro token found isElse
        have finished := noElse token found isElse
        rw [isElse] at finished
        cases finished
  | true =>
    obtain ⟨rfl, held⟩ := read
    obtain ⟨elseWord, rfl, isElse⟩ := by simpa using held
    have less₂ := moved₂.length
    apply (does_expect _ _).bind
    intro _ _ elseFeed rest₃ moved₃ read
    obtain ⟨rfl, rfl, isElseFeed⟩ := read
    have less₃ := moved₃.length
    apply (statements rest₃ (by omega)).bind
    intro elseTokens newest elseBranch rest₄ moved₄ elseRead
    refine .pure ⟨by simp, ?_, by simp [Node.isDeclaration], fun quiet => ?_⟩
    · refine .branchElse (read.made.mono ?_) (thenRead.made.mono ?_) thenRead.plain
        (elseRead.made.mono ?_) elseRead.plain
      · exact fun token held => by simp [held]
      · exact fun token held => by simp [held]
      · exact fun token held => by simp [held]
    · obtain ⟨quiet, later, last⟩ : new = [] ∧ newer = [] ∧ newest = [] := by simpa using quiet
      obtain ⟨takes, full, whole, derived, noElse⟩ := thenRead.derived later
      obtain rfl := whole.followed moved₂ (List.cons_ne_nil _ _)
      obtain ⟨elseTakes, elseFull, elseWhole, elseDerived, behind⟩ := elseRead.derived last
      -- An open condition inside the statement would have taken this `ELSE` itself.
      have far : takes → False := fun taking =>
        noElse taking elseWord (by rw [moved₂.split]; rfl) isElse
      refine ⟨elseTakes, word :: opening :: tokens ++ closing :: feed :: full ++
        elseWord :: elseFeed :: elseFull, ?_, ?_, behind⟩
      · simpa using elseWhole.behind
          (word :: opening :: tokens ++ closing :: feed :: full ++ [elseWord, elseFeed])
      · exact .branchElse isIf opens (read.derived quiet) closes isFeed derived far isElse isElseFeed
          elseDerived

private theorem does_loopLines {word : Token} (isWhile : word.symbol = .whileWord) :
    Does (loopLines expression statement) input fun taken new node rest =>
      StatementReadAs newline (word :: taken) new node rest := by
  apply does_condition less expressions
  intro opening tokens new condition closing feed rest opens read closes isFeed moved
  have shorter := moved.length
  apply (statements rest (by omega)).bind
  intro bodyTokens newer body rest₁ moved₁ bodyRead
  refine .pure ⟨by simp, ?_, by simp [Node.isDeclaration], fun quiet => ?_⟩
  · refine .loop (read.made.mono ?_) (bodyRead.made.mono ?_) bodyRead.plain
    · exact fun token held => by simp [held]
    · exact fun token held => by simp [held]
  · obtain ⟨quiet, later⟩ : new = [] ∧ newer = [] := by simpa using quiet
    obtain ⟨takes, full, whole, derived, behind⟩ := bodyRead.derived later
    refine ⟨takes, word :: opening :: tokens ++ closing :: feed :: full, ?_, ?_, behind⟩
    · simpa using whole.behind (word :: opening :: tokens ++ [closing, feed])
    · exact .loop isWhile opens (read.derived quiet) closes isFeed derived

private theorem does_declaration (feed : newline.symbol = .newline) (covered : input.length ≤ limit) :
    Does (declaration expression limit statement) input fun taken new nodes rest =>
      LineReadAs newline taken new nodes rest ∧ (¬AtEnd input → taken ≠ []) := by
  refine (does_recovering (?_ : Does _ input fun taken new nodes rest => taken ≠ [] ∧
    LineReadAs newline taken new nodes rest)).mono ?_
  · apply (does_accept _).bind
    intro found _ present rest moved read
    cases present with
    | false =>
      obtain ⟨rfl, held⟩ := read
      obtain ⟨rfl, _⟩ := held
      obtain rfl : input = rest := moved.split
      apply (statements input less).bind
      intro taken new node left _ read
      refine .pure ⟨by simp [read.some_], ?_, fun quiet => ?_⟩
      · intro other member
        rw [List.mem_singleton.mp member]
        exact read.made.mono fun token held => by simp [held]
      · obtain ⟨takes, full, whole, derived, _⟩ := read.derived (by simpa using quiet)
        exact ⟨full, by simpa using whole, fun more others lines => .statement derived lines⟩
    | true =>
      obtain ⟨rfl, held⟩ := read
      obtain ⟨word, rfl, isVar⟩ := by simpa using held
      have shorter := moved.length
      apply (does_declarationLine feed (by omega) expressions isVar (by omega)).mono
      exact fun taken new nodes left _ read => ⟨by simp, by simpa using read⟩
  · intro taken new nodes rest _ which
    rcases which with ⟨some_, read⟩ | ⟨rfl, reported, progress⟩
    · exact ⟨read, fun _ => some_⟩
    · exact ⟨⟨List.forall_mem_nil _, fun quiet => absurd quiet reported⟩, progress⟩

private theorem does_lines {done : Reader Bool} {place : List Token → Prop} (feed : newline.symbol = .newline)
    (covered : input.length ≤ limit)
    (decides : ∀ rest, Does done rest fun taken new finished left =>
      taken = [] ∧ new = [] ∧ (AtEnd left → finished) ∧ (finished → place left)) :
    Does (upTo done (declaration expression limit statement) limit) input fun taken new nodes rest =>
      LinesReadAs newline taken new nodes rest ∧ place rest := by
  have steps (rest : List Token) (opened : ¬AtEnd rest) (shorter : rest.length ≤ input.length) :
      Does (declaration expression limit statement) rest fun taken new nodes left =>
        taken ≠ [] ∧ LineReadAs newline taken new nodes left := by
    apply (does_declaration (by omega) expressions statements feed (by omega)).mono
    exact fun taken new nodes left _ read => ⟨read.2 opened, read.1⟩
  refine does_upTo limit covered ?_ steps ?_
  · intro rest
    apply (decides rest).mono
    intro _ _ found left _ read
    obtain ⟨rfl, rfl, finished, placed⟩ := read
    cases found with
    | false =>
      exact ⟨rfl, rfl, by simpa using finished⟩
    | true =>
      exact ⟨rfl, rfl, .done, placed rfl⟩
  · intro first new nodes middle some_ read more newer others left moved lines
    exact ⟨lines.1.behind read some_ moved, lines.2⟩

private theorem does_blockLines {word : Token} (feed : newline.symbol = .newline)
    (isStart : word.symbol = .start) (covered : input.length ≤ limit) :
    Does (blockLines expression limit statement) input fun taken new node rest =>
      StatementReadAs newline (word :: taken) new node rest := by
  apply (does_lineEnd feed _).bind
  intro first _ _ rest₁ moved₁ read
  obtain ⟨rfl, opening, isOpening, wholeOpening⟩ := read
  have less₁ := moved₁.length
  have decides (rest : List Token) : Does (do return (← at? .stop) || (← atEnd)) rest
      fun taken new finished left => taken = [] ∧ new = [] ∧ (AtEnd left → finished) ∧ (finished → True) := by
    apply (does_at? _).bind
    intro _ _ here middle moved read
    obtain ⟨rfl, rfl, _⟩ := read
    apply does_atEnd.bind
    intro _ _ finished left further read
    obtain ⟨rfl, rfl, known⟩ := read
    exact .pure ⟨rfl, rfl, fun ended => by simp [known.mpr ended], fun _ => trivial⟩
  apply (does_lines (by omega) expressions statements feed (by omega) decides).bind
  intro tokens new body rest₂ moved₂ read
  obtain ⟨read, _⟩ := read
  apply (does_expect _ _).bind
  intro _ _ stop rest₃ moved₃ read
  obtain ⟨rfl, rfl, isStop⟩ := read
  apply (does_lineEnd feed _).bind
  intro ending _ _ rest₄ moved₄ read
  obtain ⟨rfl, last, isLast, wholeLast⟩ := read
  refine .pure ⟨by simp, ?_, by simp [Node.isDeclaration], fun quiet => ?_⟩
  · refine .block fun node member => (read.made node member).mono ?_
    exact fun token held => by simp [held]
  · obtain ⟨full, whole, derived, _⟩ := read.derived (by simpa using quiet)
    obtain rfl := whole.followed moved₃ (List.cons_ne_nil _ _)
    have opened := wholeOpening.followed (moved₂.trans moved₃) (by simp)
    refine ⟨false, word :: opening :: full ++ [stop, last], ?_, ?_, by simp⟩
    · simpa [← opened] using wholeLast.behind (word :: opening :: full ++ [stop])
    · exact .block isStart isOpening derived isStop isLast

private theorem does_countingLines {word : Token} (isFor : word.symbol = .forWord)
    (covered : input.length ≤ limit) :
    Does (countingLines expression limit statement) input fun taken new node rest =>
      StatementReadAs newline (word :: taken) new node rest := by
  apply (does_expect _ _).bind
  intro _ _ opening rest₁ moved₁ read
  obtain ⟨rfl, rfl, opens⟩ := read
  have less₁ := moved₁.length
  apply (does_countingStart (by omega) expressions (by omega)).bind
  intro startTokens new₁ start rest₂ moved₂ started_
  have less₂ := moved₂.length
  apply (does_unlessAt (by omega) expressions _).bind
  intro conditionTokens new₂ condition rest₃ moved₃ tested
  have less₃ := moved₃.length
  apply (does_expect _ _).bind
  intro _ _ semicolon rest₄ moved₄ read
  obtain ⟨rfl, rfl, isSemicolon⟩ := read
  have less₄ := moved₄.length
  apply (does_countingStep (by omega) expressions).bind
  intro stepTokens new₃ step rest₅ moved₅ stepped_
  have less₅ := moved₅.length
  apply (does_expect _ _).bind
  intro _ _ closing rest₆ moved₆ read
  obtain ⟨rfl, rfl, closes⟩ := read
  have less₆ := moved₆.length
  apply (does_expect _ _).bind
  intro _ _ feed rest₇ moved₇ read
  obtain ⟨rfl, rfl, isFeed⟩ := read
  have less₇ := moved₇.length
  apply (statements rest₇ (by omega)).bind
  intro bodyTokens new₄ body rest₈ moved₈ bodyRead
  have testedFrom : ∀ node ∈ condition, node.ExpressionFrom (· ∈ conditionTokens) := by
    intro node same
    cases same
    exact tested.made
  have conditionDerived (quiet : new₂ = []) : Clause conditionTokens condition := by
    cases condition with
    | none =>
      obtain ⟨rfl, _⟩ := tested
      exact .nothing
    | some node => exact .some (tested.derived quiet)
  have made {given : Token → Prop} (within : ∀ token, token ∈ startTokens ∨ token ∈ conditionTokens ∨
      token ∈ stepTokens ∨ token ∈ bodyTokens → given token) :=
    countingLoop_from
      (fun node member => (started_.made node member).mono fun token held => within token (.inl held))
      (fun node member => (testedFrom node member).mono fun token held => within token (.inr (.inl held)))
      (fun node member => (stepped_.made node member).mono fun token held =>
        within token (.inr (.inr (.inl held))))
      (bodyRead.made.mono fun token held => within token (.inr (.inr (.inr held)))) bodyRead.plain
  refine .pure ⟨by simp, (made ?_).1, (made fun _ _ => trivial).2, fun quiet => ?_⟩
  · rintro token (held | held | held | held) <;> simp [held]
  · obtain ⟨quiet₁, quiet₂, quiet₃, quiet₄⟩ :
        new₁ = [] ∧ new₂ = [] ∧ new₃ = [] ∧ new₄ = [] := by
      simpa using quiet
    obtain ⟨takes, full, whole, derived, behind⟩ := bodyRead.derived quiet₄
    refine ⟨takes, word :: opening :: startTokens ++ conditionTokens ++
      semicolon :: stepTokens ++ closing :: feed :: full, ?_, ?_, behind⟩
    · simpa using whole.behind (word :: opening :: startTokens ++ conditionTokens ++
        semicolon :: stepTokens ++ [closing, feed])
    · rw [countingLoop_eq]
      exact .counting isFor opens (started_.derived quiet₁) (conditionDerived quiet₂) isSemicolon
        (stepped_.derived quiet₃) closes isFeed derived

end Nested

end Lines

private theorem startsLines_cases {symbol : Symbol} (starts : startsLines symbol) :
    symbol = .outputWord ∨ symbol = .inputWord ∨ symbol = .ifWord ∨ symbol = .whileWord ∨
      symbol = .forWord ∨ symbol = .start := by
  revert starts
  cases symbol <;> decide

private theorem does_statement {newline : Token} (feed : newline.symbol = .newline) (limit : Nat) :
    DoesBelow (limit + 1) (statement limit) fun taken new node rest =>
      StatementReadAs newline taken new node rest := by
  induction limit with
  | zero =>
    intro input less
    exact does_none (Nat.le_of_lt_succ less)
  | succ limit ih =>
    intro input less
    have expressions := does_expression (limit + 1)
    unfold statement
    apply (does_take? _).bind
    intro _ _ found rest moved read
    cases found with
    | none =>
      obtain ⟨rfl, rfl, held⟩ := read
      obtain rfl : input = rest := moved.split
      exact does_expressionLine feed less expressions
    | some word =>
      obtain ⟨rfl, rfl, held⟩ := read
      have shorter := moved.length_one
      have below : rest.length < limit + 1 := by omega
      have inside := expressions.shorter (Nat.le_succ (limit + 1))
      rcases startsLines_cases held with symbol | symbol | symbol | symbol | symbol | symbol
      all_goals simp only [Option.map_some, symbol]
      · exact does_outputLine feed below inside symbol
      · exact does_inputLine feed symbol (by omega)
      · exact does_branchLines below inside ih symbol
      · exact does_loopLines below inside ih symbol
      · exact does_countingLines below inside ih symbol (by omega)
      · exact does_blockLines below inside ih feed symbol (by omega)

theorem does_reader {newline : Token} (feed : newline.symbol = .newline) {input : List Token}
    {limit : Nat} (covered : input.length ≤ limit) :
    Does (Program.reader limit) input fun taken new nodes rest =>
      LinesReadAs newline taken new nodes rest ∧ AtEnd rest := by
  refine does_lines (Nat.lt_succ_of_le covered) (does_expression limit) (does_statement feed limit)
    feed covered fun rest => ?_
  apply does_atEnd.mono
  intro taken new finished left _ read
  obtain ⟨none, quiet, known⟩ := read
  exact ⟨none, quiet, known.mpr, known.mp⟩

theorem ofTokens?_reads {newline : Token} (feed : newline.symbol = .newline) {tokens : List Token}
    (ends : Ends tokens) :
    ∃ program taken rest, Program.ofTokens? tokens = some program ∧ Taken tokens taken rest ∧
      AtEnd rest ∧ LinesReadAs newline taken program.diagnostics program.statements rest := by
  have known := does_reader feed (Nat.le_refl tokens.length) []
  unfold Program.ofTokens?
  have steady : Steady (Program.reader tokens.length) :=
    steady_upTo steady_atEnd (steady_recovering _) _
  have sure := steady ⟨tokens, []⟩
  generalize Program.reader tokens.length ⟨tokens, []⟩ = result at known sure ⊢
  cases known with
  | given moved held => exact ⟨_, _, _, rfl, moved, held.2, held.1⟩
  | refused moved reported => exact absurd rfl (sure _)
  | exhausted inside => exact absurd ends inside.not_ends

end Cfpl.Program
