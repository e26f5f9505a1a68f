import Cfpl.Proofs.Reading.Complete
import Cfpl.Proofs.Reading.Statement

/-! Statements of the grammar are read. A row of tokens that is derived as statements, each `ELSE` with
the nearest condition, is taken as these statements without a report, also where the end of the text
stands for its last line feed. -/

namespace Cfpl.Program

open Reader Grammar

namespace Whole

variable {newline : Token} {taken rest first second : List Token}

theorem split (whole : Whole newline taken rest (first ++ second)) (some_ : second ≠ []) :
    ∃ more, taken = first ++ more ∧ Whole newline more rest second := by
  rcases whole with rfl | ⟨same, finished⟩
  · exact ⟨second, rfl, .inl rfl⟩
  · obtain ⟨init, last, rfl⟩ : ∃ init last, second = init ++ [last] :=
      ⟨second.dropLast, second.getLast some_, (List.dropLast_concat_getLast some_).symm⟩
    rw [← List.append_assoc] at same
    obtain ⟨before, ⟨⟩⟩ := List.append_inj' same rfl
    exact ⟨init, before.symm, .inr ⟨rfl, finished⟩⟩

theorem parts (whole : Whole newline taken rest (first ++ second)) :
    ∃ front more, taken = front ++ more ∧ Whole newline front (more ++ rest) first ∧
      Whole newline more rest second := by
  by_cases none : second = []
  · subst none
    rw [List.append_nil] at whole
    exact ⟨taken, [], (List.append_nil _).symm, whole, .inl rfl⟩
  · obtain ⟨more, rfl, later⟩ := whole.split none
    exact ⟨first, more, rfl, .inl rfl, later⟩

theorem head {full : List Token} {token : Token} (whole : Whole newline taken rest full)
    (feed : newline.symbol = .newline) (found : token ∈ full.head?) (apart : token.symbol ≠ .newline) :
    token ∈ taken.head? := by
  rcases whole with rfl | ⟨rfl, _⟩
  · exact found
  · cases taken with
    | nil =>
      cases found
      exact absurd feed apart
    | cons head tail => exact found

end Whole

namespace Reader

variable {α : Type} {rest tokens : List Token} {symbol : Symbol} {token : Token}

private theorem reads_accept (same : token.symbol = symbol) (opened : symbol ≠ .endOfText) (rest : List Token) :
    Reads (accept symbol) [token] true rest := by
  apply (reads_take? (same ▸ opened) (by simpa using same) rest).behind
  exact .pure true rest

theorem reads_accept_none (refuses : Refuses (· = symbol) rest) :
    Reads (accept symbol) [] false rest := by
  refine (reads_take?_none refuses).before ?_
  exact .pure false rest

private theorem reads_peek (token : Token) (rest : List Token) : Reads peek [] token (token :: rest) :=
  fun _ => rfl

private theorem reads_atEnd (token : Token) (rest : List Token) :
    Reads atEnd [] (token.symbol = .endOfText) (token :: rest) :=
  (reads_peek token rest).before (.pure _ _)

theorem reads_atEnd_inside (inside : token.symbol ≠ .endOfText) (rest : List Token) :
    Reads atEnd [] false (token :: rest) := by
  have reads := reads_atEnd token rest
  rwa [decide_eq_false inside] at reads

theorem reads_atEnd_last (ends : token.symbol = .endOfText) (rest : List Token) :
    Reads atEnd [] true (token :: rest) := by
  have reads := reads_atEnd token rest
  rwa [decide_eq_true ends] at reads

private theorem reads_at? (same : token.symbol = symbol) (opened : symbol ≠ .endOfText) (rest : List Token) :
    Reads (at? symbol) [] true (token :: rest) := by
  apply (reads_peek token rest).before
  simp only [same, opened, ne_eq, not_false_eq_true, decide_true, Bool.and_self]
  exact .pure true _

private theorem reads_at?_none (refuses : Refuses (· = symbol) rest) : Reads (at? symbol) [] false rest := by
  obtain ⟨token, found, refused⟩ := refuses
  cases rest with
  | nil => cases found
  | cons head tail =>
    cases found
    have other : (decide (token.symbol ≠ .endOfText) && decide (token.symbol = symbol)) = false := by
      rcases refused with finished | apart
      · simp [finished]
      · simp_all
    apply (reads_peek token tail).before
    rw [other]
    exact .pure false _

theorem recovering_of_ok {step : Reader (List α)} {as : List α} {position after : Position}
    (read : step position = .ok as after) : recovering step position = .ok as after := by
  unfold recovering
  rw [read]

private theorem reads_recovering {step : Reader (List α)} {as : List α} (reads : Reads step tokens as rest) :
    Reads (recovering step) tokens as rest :=
  fun reports => recovering_of_ok (reads reports)

theorem reads_endLine {newline feed : Token} {last : List Token} (whole : Whole newline last rest [feed])
    (isFeed : feed.symbol = .newline) (message : String) : Reads (endLine message) last () rest := by
  rcases whole with rfl | ⟨same, token, found, finished⟩
  · apply (reads_accept isFeed (by decide) rest).behind
    exact .pure () rest
  · obtain rfl : last = [] := by
      cases last with
      | nil => rfl
      | cons head tail => simp at same
    cases rest with
    | nil => cases found
    | cons head tail =>
      cases found
      apply (reads_accept_none ⟨token, rfl, .inl finished⟩).before
      apply (reads_atEnd_last finished tail).before
      exact .pure () _

end Reader

private theorem refuses_behind {accepts : Symbol → Bool} {token : Token} {symbol : Symbol} (rest : List Token)
    (same : token.symbol = symbol) (apart : ¬accepts symbol) : Refuses accepts (token :: rest) :=
  ⟨token, rfl, .inr (same ▸ apart)⟩

private theorem refuses_lineEnd {accepts : Symbol → Bool} {newline feed : Token} {last rest : List Token}
    (whole : Whole newline last rest [feed]) (isFeed : feed.symbol = .newline)
    (apart : ¬accepts .newline) : Refuses accepts (last ++ rest) := by
  rcases whole with rfl | ⟨same, token, found, finished⟩
  · exact refuses_behind rest isFeed apart
  · cases last with
    | nil => exact ⟨token, found, .inl finished⟩
    | cons head tail => simp at same

private theorem reads_expression {tokens rest : List Token} {node : Node} {limit : Nat}
    (derived : Expression .assignment tokens node) (refuses : Refuses Level.assignment.continues rest)
    (covered : (tokens ++ rest).length ≤ limit) : Reads (expression limit) tokens node rest := by
  have positive := refuses.length_pos
  have some_ : 0 < (tokens ++ rest).length := by simp; omega
  obtain ⟨depth, rfl⟩ : ∃ depth, limit = depth + 1 := ⟨limit - 1, by omega⟩
  exact (isRead_of_derived derived).whole depth (depth + 1) rest refuses ⟨covered, covered⟩

section Parts

variable {tokens rest : List Token} {size limit : Nat}

private theorem reads_variableItem {name : Token} {initial : Node} (item : Item tokens name initial)
    (refuses : Refuses Level.assignment.continues rest) (covered : (tokens ++ rest).length ≤ size) :
    Reads (variableItem (expression size)) tokens (name, initial) rest := by
  cases item with
  | plain symbol =>
    apply (reads_expect symbol (by decide) _ rest).behind
    have stands : Refuses (· = .equal) rest :=
      refuses.weaker fun symbol same => by simp_all [Level.continues]
    apply (reads_accept_none stands).before
    exact .pure _ rest
  | @initialized _ equals tokens _ symbol isEqual derived =>
    show Reads _ ([name] ++ ([equals] ++ tokens)) _ rest
    apply (reads_expect symbol (by decide) _ _).bind
    apply (reads_accept isEqual (by decide) _).bind
    have reads : Reads (expression size) tokens initial rest :=
      reads_expression derived refuses (by simp at covered ⊢; omega)
    apply reads.behind
    exact .pure _ rest

private theorem reads_items {items : List (Token × Node)} (limit : Nat) (derived : Items tokens items)
    (refuses : Refuses Level.assignment.continues rest) (noComma : Refuses (· = .comma) rest)
    (covered : (tokens ++ rest).length ≤ size) (enough : (tokens ++ rest).length ≤ limit) :
    ∃ first more item others, tokens = first ++ more ∧ items = item :: others ∧
      Reads (variableItem (expression size)) first item (more ++ rest) ∧
      Reads (afterCommas (variableItem (expression size)) limit) more others rest := by
  induction derived generalizing limit with
  | @single tokens name initial item =>
    have positive := refuses.length_pos
    simp only [List.length_append] at enough
    obtain ⟨fewer, rfl⟩ : ∃ fewer, limit = fewer + 1 := ⟨limit - 1, by omega⟩
    refine ⟨tokens, [], (name, initial), [], by simp, rfl, ?_, ?_⟩
    · exact reads_variableItem item refuses covered
    · apply (reads_accept_none noComma).before
      exact .pure _ rest
  | @more front tokens separator name initial items item isComma _ ih =>
    simp only [List.length_append, List.length_cons] at covered enough
    obtain ⟨fewer, rfl⟩ : ∃ fewer, limit = fewer + 1 := ⟨limit - 1, by omega⟩
    obtain ⟨first, more, next, others, rfl, rfl, reads, later⟩ :=
      ih fewer (by simp; omega) (by simp; omega)
    refine ⟨front, separator :: (first ++ more), (name, initial), next :: others, rfl, rfl, ?_, ?_⟩
    · apply reads_variableItem item (refuses_behind _ isComma (by decide))
      simp at covered ⊢
      omega
    · show Reads _ ([separator] ++ (first ++ more)) _ rest
      apply (reads_accept isComma (by decide) _).bind
      refine reads.bind (later.behind ?_)
      exact .pure _ rest

private theorem reads_names {names : List Token} (limit : Nat) (derived : Names tokens names)
    (noComma : Refuses (· = .comma) rest) (enough : (tokens ++ rest).length ≤ limit) (message : String) :
    ∃ first more others, tokens = first :: more ∧ names = first :: others ∧
      first.symbol = .identifier ∧
      Reads (afterCommas (expect .identifier message) limit) more others rest := by
  induction derived generalizing limit with
  | @single name symbol =>
    simp only [List.length_append, List.length_singleton] at enough
    obtain ⟨fewer, rfl⟩ : ∃ fewer, limit = fewer + 1 := ⟨limit - 1, by omega⟩
    refine ⟨name, [], [], rfl, rfl, symbol, ?_⟩
    apply (reads_accept_none noComma).before
    exact .pure _ rest
  | @more name separator tokens names symbol isComma _ ih =>
    simp only [List.length_append, List.length_cons] at enough
    obtain ⟨fewer, rfl⟩ : ∃ fewer, limit = fewer + 1 := ⟨limit - 1, by omega⟩
    obtain ⟨first, more, others, rfl, rfl, known, later⟩ := ih fewer (by simp; omega)
    refine ⟨name, separator :: first :: more, first :: others, rfl, rfl, symbol, ?_⟩
    show Reads _ ([separator] ++ ([first] ++ more)) _ rest
    apply (reads_accept isComma (by decide) _).bind
    refine (reads_expect known (by decide) _ _).bind (later.behind ?_)
    exact .pure _ rest

private theorem reads_sharedType {nodes : List Node} {last : List Token} {ending : Reader Unit}
    (derived : Declarations tokens nodes) (ends : Reads ending last () rest)
    (covered : (tokens ++ last ++ rest).length ≤ size)
    (enough : (tokens ++ last ++ rest).length ≤ limit) :
    ∃ word typed, tokens = word :: typed ∧ word.symbol = .varWord ∧
      Reads (sharedType (expression size) limit ending) (typed ++ last) nodes rest := by
  cases derived with
  | @typed word asWord dataType tokens items isVar isAs typed derived =>
    refine ⟨word, tokens ++ [asWord, dataType], rfl, isVar, ?_⟩
    have behind : Refuses Level.assignment.continues (asWord :: dataType :: last ++ rest) :=
      refuses_behind _ isAs (by decide)
    have noComma : Refuses (· = .comma) (asWord :: dataType :: last ++ rest) :=
      refuses_behind _ isAs (by decide)
    simp only [List.length_append, List.length_cons, List.length_nil] at covered enough
    obtain ⟨first, more, item, others, rfl, rfl, reads, later⟩ :=
      reads_items limit derived behind noComma (Nat.le_trans (by simp; omega) covered)
        (by simp at enough ⊢; omega)
    have opened : dataType.symbol ≠ .endOfText := by
      intro finished
      rw [finished] at typed
      cases typed
    have whole : first ++ more ++ [asWord, dataType] ++ last =
        first ++ (more ++ ([asWord] ++ ([dataType] ++ last))) := by simp
    rw [whole]
    apply Reads.bind (by simpa using reads)
    apply Reads.bind (by simpa using later)
    apply (reads_expect isAs (by decide) _ _).bind
    apply (reads_expectAny opened typed _ _).bind
    apply ends.behind
    exact .pure _ rest

private theorem reads_condition {next : Node → Reader Node} {opening closing feed : Token} {more : List Token}
    {condition node : Node} (opens : opening.symbol = .leftParen)
    (derived : Expression .assignment tokens condition) (closes : closing.symbol = .rightParen)
    (isFeed : feed.symbol = .newline)
    (covered : (tokens ++ closing :: feed :: more ++ rest).length ≤ size) (before behind after : String)
    (onward : Reads (next condition) more node rest) :
    Reads (do
      let _ ← expect .leftParen before
      let condition ← expression size
      let _ ← expect .rightParen behind
      let _ ← expect .newline after
      next condition) (opening :: tokens ++ closing :: feed :: more) node rest := by
  have reads : Reads (expression size) tokens condition ([closing] ++ ([feed] ++ more) ++ rest) :=
    reads_expression derived (refuses_behind _ closes (by decide)) (by simpa using covered)
  show Reads _ ([opening] ++ (tokens ++ ([closing] ++ ([feed] ++ more)))) node rest
  apply (reads_expect opens (by decide) _ _).bind
  apply reads.bind
  apply (reads_expect closes (by decide) _ _).bind
  apply (reads_expect isFeed (by decide) _ _).bind
  exact onward

end Parts

private theorem begins_of_derived {level : Level} {tokens : List Token} {node : Node}
    (derived : Expression level tokens node) :
    ∃ token ∈ tokens.head?, startsPrimary token.symbol ∨ isUnary token.symbol := by
  induction derived with
  | stronger _ ih => exact ih
  | joined _ _ _ before =>
    obtain ⟨token, found, begins⟩ := before
    exact ⟨token, by simp [Option.mem_def.mp found], begins⟩
  | unary known => exact ⟨_, rfl, .inr ((Level.isUnary_iff _).mpr known)⟩
  | assign symbol | truth symbol | falsehood symbol | reference symbol | grouping symbol =>
    exact ⟨_, rfl, .inl (by rw [symbol]; rfl)⟩
  | @literal token symbol =>
    exact ⟨token, rfl, .inl (by simp [startsPrimary, (Level.carriesLiteral_iff _).mpr symbol])⟩

def opensPlain (symbol : Symbol) : Prop := startsLines symbol ∨ startsPrimary symbol ∨ isUnary symbol

theorem opensPlain.apart {symbol other : Symbol} (opens : opensPlain symbol)
    (never : other ∈ [Symbol.varWord, .elseWord, .stop, .newline, .endOfText]) : symbol ≠ other := by
  intro same
  subst same
  simp only [List.mem_cons, List.not_mem_nil, or_false] at never
  rcases never with rfl | rfl | rfl | rfl | rfl <;> simp [opensPlain, startsLines, startsPrimary,
    carriesLiteral, isUnary] at opens

private theorem begins_of_statement {far : Prop} {takes : Bool} {full : List Token} {node : Node}
    (derived : Statement far takes full node) : ∃ token ∈ full.head?, opensPlain token.symbol := by
  cases derived with
  | expression derived =>
    obtain ⟨token, found, begins⟩ := begins_of_derived derived
    exact ⟨token, by simp [Option.mem_def.mp found], .inr begins⟩
  | output symbol | input symbol | block symbol | branch symbol | branchElse symbol | loop symbol
  | counting symbol => exact ⟨_, rfl, .inl (by rw [symbol]; rfl)⟩

private theorem begins_of_lines {far : Prop} {full : List Token} {nodes : List Node}
    (derived : Lines far full nodes) (some_ : full ≠ []) :
    ∃ token ∈ full.head?, opensPlain token.symbol ∨ token.symbol = .varWord := by
  cases derived with
  | done => exact absurd rfl some_
  | declarations typed =>
    cases typed with
    | typed isVar => exact ⟨_, rfl, .inr isVar⟩
  | statement derived =>
    obtain ⟨token, found, begins⟩ := begins_of_statement derived
    exact ⟨token, by simp [Option.mem_def.mp found], .inl begins⟩

section Counting

variable {tokens rest : List Token} {size limit : Nat}

private theorem refuses_begin {accepts : Symbol → Bool} {node : Node}
    (derived : Expression .assignment tokens node) (rest : List Token)
    (apart : ∀ symbol, startsPrimary symbol ∨ isUnary symbol → ¬accepts symbol) :
    Refuses accepts (tokens ++ rest) := by
  obtain ⟨token, found, begins⟩ := begins_of_derived derived
  exact ⟨token, by simp [Option.mem_def.mp found], .inr (apart _ begins)⟩

private theorem reads_unlessAt_none {symbol : Symbol} {token : Token} (same : token.symbol = symbol)
    (opened : symbol ≠ .endOfText) :
    Reads (unlessAt (expression size) symbol) [] none (token :: rest) := by
  apply (reads_at? same opened rest).before
  exact .pure none _

private theorem reads_unlessAt (symbol : Symbol) {body : Node} (derived : Expression .assignment tokens body)
    (refuses : Refuses Level.assignment.continues rest) (covered : (tokens ++ rest).length ≤ size)
    (apart : ¬startsPrimary symbol ∧ ¬isUnary symbol) :
    Reads (unlessAt (expression size) symbol) tokens (some body) rest := by
  have stands : Refuses (· = symbol) (tokens ++ rest) := by
    apply refuses_begin derived rest
    intro other begins same
    obtain rfl := of_decide_eq_true same
    exact begins.elim apart.1 apart.2
  refine (reads_at?_none stands).before ?_
  apply (reads_expression derived refuses covered).behind
  exact .pure _ rest

private theorem reads_clause {semicolon : Token} {condition : Option Node} (derived : Clause tokens condition)
    (isSemicolon : semicolon.symbol = .semicolon)
    (covered : (tokens ++ semicolon :: rest).length ≤ size) :
    Reads (unlessAt (expression size) .semicolon) tokens condition (semicolon :: rest) := by
  cases derived with
  | nothing => exact reads_unlessAt_none isSemicolon (by decide)
  | some derived =>
    exact reads_unlessAt .semicolon derived (refuses_behind _ isSemicolon (by decide)) covered (by decide)

private theorem reads_countingStep {closing : Token} {step : Option Node} (derived : Step tokens step)
    (closes : closing.symbol = .rightParen) (covered : (tokens ++ closing :: rest).length ≤ size) :
    Reads (countingStep (expression size)) tokens step (closing :: rest) := by
  have noSemicolon : Refuses (· = .semicolon) (closing :: rest) :=
    refuses_behind rest closes (by decide)
  cases derived with
  | clause derived =>
    cases derived with
    | nothing =>
      apply (reads_unlessAt_none closes (by decide)).before
      exact .pure none _
    | some derived =>
      have reads := reads_unlessAt .rightParen derived
        (refuses_behind rest closes (by decide)) covered (by decide)
      refine reads.behind ((reads_accept_none noSemicolon).before ?_)
      exact .pure _ _
  | @closed tokens semicolon body derived isSemicolon =>
    have reads := reads_unlessAt .rightParen derived
      (refuses_behind (closing :: rest) isSemicolon (by decide)) (by simpa using covered) (by decide)
    refine reads.bind ((reads_accept isSemicolon (by decide) _).behind ?_)
    exact .pure _ _

private theorem reads_countingStart {nodes : List Node} (derived : Start tokens nodes)
    (covered : (tokens ++ rest).length ≤ size) (enough : (tokens ++ rest).length ≤ limit) :
    Reads (countingStart (expression size) limit) tokens nodes rest := by
  cases derived with
  | nothing isSemicolon =>
    apply (reads_accept isSemicolon (by decide) rest).behind
    exact .pure [] rest
  | @declarations tokens semicolon nodes derived isSemicolon =>
    have ends : Reads (do let _ ← expect .semicolon "Expect ';' after loop variable declaration.")
        [semicolon] () rest := by
      apply (reads_expect isSemicolon (by decide) _ rest).behind
      exact .pure () rest
    obtain ⟨word, typed, rfl, isVar, reads⟩ := reads_sharedType derived ends covered enough
    show Reads _ ([word] ++ (typed ++ [semicolon])) nodes rest
    apply Reads.before (reads_accept_none (refuses_behind _ isVar (by decide)))
    exact (reads_accept isVar (by decide) _).bind reads
  | @expression tokens semicolon body derived isSemicolon =>
    have behind : Refuses Level.assignment.continues ([semicolon] ++ rest) :=
      refuses_behind rest isSemicolon (by decide)
    have noSemicolon : Refuses (· = .semicolon) (tokens ++ [semicolon] ++ rest) := by
      rw [List.append_assoc]
      apply refuses_begin derived _
      intro symbol begins
      cases symbol <;> revert begins <;> decide
    have noVar : Refuses (· = .varWord) (tokens ++ [semicolon] ++ rest) := by
      rw [List.append_assoc]
      apply refuses_begin derived _
      intro symbol begins
      cases symbol <;> revert begins <;> decide
    refine (reads_accept_none noSemicolon).before ((reads_accept_none noVar).before ?_)
    apply (reads_expression derived behind (by simpa using covered)).bind
    apply (reads_expect isSemicolon (by decide) _ rest).behind
    exact .pure _ rest

end Counting

def StatementIsRead (newline : Token) (takes : Bool) (full : List Token) (node : Node) : Prop :=
  ∀ limit taken rest, Whole newline taken rest full → (takes → Refuses (· = .elseWord) rest) →
    (taken ++ rest).length ≤ limit → Reads (statement limit) taken node rest

def LinesAreRead (newline : Token) (full : List Token) (nodes : List Node) : Prop :=
  ∀ size limit rounds taken rest (done : Reader Bool), Whole newline taken rest full →
    Refuses (· = .elseWord) rest → Reads done [] true rest →
    (∀ token tokens, token.symbol ≠ .stop → token.symbol ≠ .endOfText →
      Reads done [] false (token :: tokens)) →
    (taken ++ rest).length ≤ size → (taken ++ rest).length ≤ limit →
    (taken ++ rest).length ≤ rounds →
    Reads (upTo done (declaration (expression size) limit (statement limit)) rounds) taken nodes rest

private theorem mem_head?_append {token : Token} {first rest : List Token} (found : token ∈ first.head?) :
    token ∈ (first ++ rest).head? := by
  simp [Option.mem_def.mp found]

namespace StatementIsRead

variable {newline word opening closing semicolon last feed elseWord elseFeed : Token}
  {tokens bodyTokens elseTokens : List Token} {node body elseBranch : Node} {takes bodyTakes : Bool}

theorem expression (derived : Expression .assignment tokens body) (isFeed : last.symbol = .newline) :
    StatementIsRead newline false (tokens ++ [last]) (.expression body) := by
  intro limit taken rest whole _ covered
  obtain ⟨ending, rfl, ended⟩ := whole.split (List.cons_ne_nil _ _)
  obtain ⟨token, found, begins⟩ := begins_of_derived derived
  have positive := List.length_pos_of_mem (List.mem_of_mem_head? found)
  have some_ : 0 < (tokens ++ ending ++ rest).length := by simp; omega
  obtain ⟨fewer, rfl⟩ : ∃ fewer, limit = fewer + 1 := ⟨limit - 1, by omega⟩
  have plain : ¬startsLines token.symbol := by
    revert begins
    cases token.symbol <;> decide
  have stands : Refuses startsLines (tokens ++ ending ++ rest) :=
    ⟨token, mem_head?_append (mem_head?_append found), .inr plain⟩
  have reads : Reads (Program.expression (fewer + 1)) tokens body (ending ++ rest) :=
    reads_expression derived (refuses_lineEnd ended isFeed (by decide)) (by simpa using covered)
  refine (reads_take?_none stands).before ?_
  refine reads.bind ((reads_endLine ended isFeed _).behind ?_)
  exact .pure _ rest

theorem output (isOutput : word.symbol = .outputWord) (derived : Expression .assignment tokens body)
    (isFeed : last.symbol = .newline) :
    StatementIsRead newline false (word :: tokens ++ [last]) (.output body) := by
  intro limit taken rest whole _ covered
  obtain ⟨ending, rfl, ended⟩ := whole.split (List.cons_ne_nil _ _)
  simp only [List.cons_append, List.length_cons] at covered
  obtain ⟨fewer, rfl⟩ : ∃ fewer, limit = fewer + 1 := ⟨limit - 1, by omega⟩
  have reads : Reads (Program.expression (fewer + 1)) tokens body (ending ++ rest) :=
    reads_expression derived (refuses_lineEnd ended isFeed (by decide)) (by simp at covered ⊢; omega)
  show Reads _ ([word] ++ (tokens ++ ending)) _ rest
  apply (reads_take? (by simp [isOutput]) (by rw [isOutput]; rfl) _).bind
  simp only [Option.map_some, isOutput]
  refine reads.bind ((reads_endLine ended isFeed _).behind ?_)
  exact .pure _ rest

theorem input {names : List Token} (isInput : word.symbol = .inputWord) (derived : Names tokens names)
    (isFeed : last.symbol = .newline) :
    StatementIsRead newline false (word :: tokens ++ [last]) (.input names) := by
  intro limit taken rest whole _ covered
  obtain ⟨ending, rfl, ended⟩ := whole.split (List.cons_ne_nil _ _)
  simp only [List.cons_append, List.length_cons] at covered
  obtain ⟨fewer, rfl⟩ : ∃ fewer, limit = fewer + 1 := ⟨limit - 1, by omega⟩
  have noComma : Refuses (· = .comma) (ending ++ rest) :=
    refuses_lineEnd ended isFeed (by decide)
  obtain ⟨first, more, others, rfl, rfl, symbol, later⟩ :=
    reads_names fewer derived noComma (by simp at covered ⊢; omega)
      "Expect variable name after ','."
  show Reads _ ([word] ++ ([first] ++ (more ++ ending))) _ rest
  apply (reads_take? (by simp [isInput]) (by rw [isInput]; rfl) _).bind
  simp only [Option.map_some, isInput]
  apply (reads_expect symbol (by decide) _ _).bind
  refine later.bind ((reads_endLine ended isFeed _).behind ?_)
  exact .pure _ rest

theorem branch (isIf : word.symbol = .ifWord) (opens : opening.symbol = .leftParen)
    (derived : Expression .assignment tokens node) (closes : closing.symbol = .rightParen)
    (isFeed : feed.symbol = .newline) (read : StatementIsRead newline takes bodyTokens body)
    (some_ : bodyTokens ≠ []) :
    StatementIsRead newline true (word :: opening :: tokens ++ closing :: feed :: bodyTokens)
      (.branch node body .absent) := by
  intro limit taken rest whole noElse covered
  have parted : Whole newline taken rest
      ((word :: opening :: tokens ++ [closing, feed]) ++ bodyTokens) := by simpa using whole
  obtain ⟨bodyTaken, rfl, ended⟩ := parted.split some_
  simp only [List.cons_append, List.length_cons] at covered
  obtain ⟨fewer, rfl⟩ : ∃ fewer, limit = fewer + 1 := ⟨limit - 1, by omega⟩
  have bodyReads := read fewer bodyTaken rest ended (fun _ => noElse rfl) (by simp at covered ⊢; omega)
  rw [show word :: opening :: tokens ++ [closing, feed] ++ bodyTaken =
    [word] ++ (opening :: tokens ++ closing :: feed :: bodyTaken) by simp]
  apply (reads_take? (by simp [isIf]) (by rw [isIf]; rfl) _).bind
  simp only [Option.map_some, isIf]
  apply reads_condition opens derived closes isFeed (by simp at covered ⊢; omega)
  refine bodyReads.behind ((reads_accept_none (noElse rfl)).before ?_)
  exact .pure _ rest

theorem branchElse (isIf : word.symbol = .ifWord) (opens : opening.symbol = .leftParen)
    (derived : Expression .assignment tokens node) (closes : closing.symbol = .rightParen)
    (isFeed : feed.symbol = .newline) (read : StatementIsRead newline bodyTakes bodyTokens body)
    (near : ¬bodyTakes) (isElse : elseWord.symbol = .elseWord) (isElseFeed : elseFeed.symbol = .newline)
    (elseRead : StatementIsRead newline takes elseTokens elseBranch) (some_ : elseTokens ≠ []) :
    StatementIsRead newline takes (word :: opening :: tokens ++ closing :: feed :: bodyTokens ++
      elseWord :: elseFeed :: elseTokens) (.branch node body elseBranch) := by
  intro limit taken rest whole noElse covered
  have parted : Whole newline taken rest ((word :: opening :: tokens ++ closing :: feed :: bodyTokens ++
      [elseWord, elseFeed]) ++ elseTokens) := by simpa using whole
  obtain ⟨elseTaken, rfl, ended⟩ := parted.split some_
  simp only [List.cons_append, List.length_cons] at covered
  obtain ⟨fewer, rfl⟩ : ∃ fewer, limit = fewer + 1 := ⟨limit - 1, by omega⟩
  have bodyReads := read fewer bodyTokens ([elseWord, elseFeed] ++ elseTaken ++ rest) (.inl rfl)
    (fun taking => absurd taking near) (by simp at covered ⊢; omega)
  have elseReads := elseRead fewer elseTaken rest ended noElse (by simp at covered ⊢; omega)
  rw [show word :: opening :: tokens ++ closing :: feed :: bodyTokens ++ [elseWord, elseFeed] ++
    elseTaken = [word] ++ (opening :: tokens ++ closing :: feed :: (bodyTokens ++ ([elseWord] ++
      ([elseFeed] ++ elseTaken)))) by simp]
  apply (reads_take? (by simp [isIf]) (by rw [isIf]; rfl) _).bind
  simp only [Option.map_some, isIf]
  apply reads_condition opens derived closes isFeed (by simp at covered ⊢; omega)
  refine Reads.bind (by simpa using bodyReads) ((reads_accept isElse (by decide) _).bind ?_)
  refine (reads_expect isElseFeed (by decide) _ _).bind (elseReads.behind ?_)
  exact .pure _ rest

theorem loop (isWhile : word.symbol = .whileWord) (opens : opening.symbol = .leftParen)
    (derived : Expression .assignment tokens node) (closes : closing.symbol = .rightParen)
    (isFeed : feed.symbol = .newline) (read : StatementIsRead newline takes bodyTokens body)
    (some_ : bodyTokens ≠ []) :
    StatementIsRead newline takes (word :: opening :: tokens ++ closing :: feed :: bodyTokens)
      (.loop node body) := by
  intro limit taken rest whole noElse covered
  have parted : Whole newline taken rest
      ((word :: opening :: tokens ++ [closing, feed]) ++ bodyTokens) := by simpa using whole
  obtain ⟨bodyTaken, rfl, ended⟩ := parted.split some_
  simp only [List.cons_append, List.length_cons] at covered
  obtain ⟨fewer, rfl⟩ : ∃ fewer, limit = fewer + 1 := ⟨limit - 1, by omega⟩
  have bodyReads := read fewer bodyTaken rest ended noElse (by simp at covered ⊢; omega)
  rw [show word :: opening :: tokens ++ [closing, feed] ++ bodyTaken =
    [word] ++ (opening :: tokens ++ closing :: feed :: bodyTaken) by simp]
  apply (reads_take? (by simp [isWhile]) (by rw [isWhile]; rfl) _).bind
  simp only [Option.map_some, isWhile]
  apply reads_condition opens derived closes isFeed (by simp at covered ⊢; omega)
  apply bodyReads.behind
  exact .pure _ rest

theorem counting {startTokens conditionTokens stepTokens : List Token} {start : List Node}
    {condition step : Option Node} (isFor : word.symbol = .forWord)
    (opens : opening.symbol = .leftParen) (starts : Start startTokens start)
    (tests : Clause conditionTokens condition) (isSemicolon : semicolon.symbol = .semicolon)
    (steps : Step stepTokens step) (closes : closing.symbol = .rightParen)
    (isFeed : feed.symbol = .newline) (read : StatementIsRead newline takes bodyTokens body)
    (some_ : bodyTokens ≠ []) :
    StatementIsRead newline takes (word :: opening :: startTokens ++ conditionTokens ++
      semicolon :: stepTokens ++ closing :: feed :: bodyTokens)
      (started start (.loop (conditionOr condition) (stepped body step))) := by
  intro limit taken rest whole noElse covered
  have parted : Whole newline taken rest ((word :: opening :: startTokens ++ conditionTokens ++
      semicolon :: stepTokens ++ [closing, feed]) ++ bodyTokens) := by simpa using whole
  obtain ⟨bodyTaken, rfl, ended⟩ := parted.split some_
  simp only [List.cons_append, List.length_cons] at covered
  obtain ⟨fewer, rfl⟩ : ∃ fewer, limit = fewer + 1 := ⟨limit - 1, by omega⟩
  have startReads : Reads (countingStart (Program.expression (fewer + 1)) fewer) startTokens start
      (conditionTokens ++ semicolon :: (stepTokens ++ closing :: feed :: (bodyTaken ++ rest))) :=
    reads_countingStart starts (by simp at covered ⊢; omega) (by simp at covered ⊢; omega)
  have testReads : Reads (unlessAt (Program.expression (fewer + 1)) .semicolon) conditionTokens condition
      (semicolon :: (stepTokens ++ closing :: feed :: (bodyTaken ++ rest))) :=
    reads_clause tests isSemicolon (by simp at covered ⊢; omega)
  have stepReads : Reads (countingStep (Program.expression (fewer + 1))) stepTokens step
      (closing :: feed :: (bodyTaken ++ rest)) :=
    reads_countingStep steps closes (by simp at covered ⊢; omega)
  have bodyReads := read fewer bodyTaken rest ended noElse (by simp at covered ⊢; omega)
  rw [show word :: opening :: startTokens ++ conditionTokens ++ semicolon :: stepTokens ++
    [closing, feed] ++ bodyTaken = [word] ++ ([opening] ++ (startTokens ++ (conditionTokens ++
      ([semicolon] ++ (stepTokens ++ ([closing] ++ ([feed] ++ bodyTaken))))))) by simp]
  apply (reads_take? (by simp [isFor]) (by rw [isFor]; rfl) _).bind
  simp only [Option.map_some, isFor]
  refine (reads_expect opens (by decide) _ _).bind (Reads.bind (by simpa using startReads) ?_)
  refine Reads.bind (by simpa using testReads) ((reads_expect isSemicolon (by decide) _ _).bind ?_)
  refine Reads.bind (by simpa using stepReads) ((reads_expect closes (by decide) _ _).bind ?_)
  refine (reads_expect isFeed (by decide) _ _).bind (bodyReads.behind ?_)
  rw [← countingLoop_eq]
  exact .pure _ rest

theorem reads_blockEnd {token : Token} (rest : List Token) {finished : Bool}
    (known : (finished : Prop) ↔ token.symbol = .stop ∨ token.symbol = .endOfText) :
    Reads (do return (← at? .stop) || (← atEnd)) [] finished (token :: rest) := by
  have decided : finished = (decide (token.symbol ≠ .endOfText) && decide (token.symbol = .stop) ||
      decide (token.symbol = .endOfText)) := by
    rw [Bool.eq_iff_iff, known]
    by_cases ends : token.symbol = .endOfText <;> simp [ends]
  rw [decided]
  refine Reads.before ((reads_peek token rest).before (.pure _ _)) ?_
  apply Reads.before (reads_atEnd token rest)
  exact .pure _ _

theorem block {nodes : List Node} {stop : Token} (isStart : word.symbol = .start)
    (isFeed : feed.symbol = .newline) (read : LinesAreRead newline tokens nodes)
    (isStop : stop.symbol = .stop) (isLast : last.symbol = .newline) :
    StatementIsRead newline false (word :: feed :: tokens ++ [stop, last]) (.block nodes) := by
  intro limit taken rest whole _ covered
  have parted : Whole newline taken rest ((word :: feed :: tokens ++ [stop]) ++ [last]) := by
    simpa using whole
  obtain ⟨ending, rfl, ended⟩ := parted.split (List.cons_ne_nil _ _)
  simp only [List.cons_append, List.length_cons] at covered
  obtain ⟨fewer, rfl⟩ : ∃ fewer, limit = fewer + 1 := ⟨limit - 1, by omega⟩
  have lines := read (fewer + 1) fewer fewer tokens ([stop] ++ ending ++ rest)
    (do return (← at? .stop) || (← atEnd)) (.inl rfl) (refuses_behind _ isStop (by decide))
    (reads_blockEnd _ (by simp [isStop]))
    (fun token others noStop opened => reads_blockEnd others (by simp [noStop, opened]))
    (by simp at covered ⊢; omega) (by simp at covered ⊢; omega) (by simp at covered ⊢; omega)
  rw [show word :: feed :: tokens ++ [stop] ++ ending =
    [word] ++ ([feed] ++ (tokens ++ ([stop] ++ ending))) by simp]
  apply (reads_take? (by simp [isStart]) (by rw [isStart]; rfl) _).bind
  simp only [Option.map_some, isStart]
  have opened : Whole newline [feed] (tokens ++ ([stop] ++ ending) ++ rest) [feed] := .inl rfl
  refine (reads_endLine opened isFeed _).bind (Reads.bind (by simpa using lines) ?_)
  refine (reads_expect isStop (by decide) _ _).bind ((reads_endLine ended isLast _).behind ?_)
  exact .pure _ rest

end StatementIsRead

namespace Reader

variable {α : Type} {done : Reader Bool} {step : Reader (List α)} {front more rest : List Token}
  {as others : List α}

theorem reads_upTo_done (stops : Reads done [] true rest) {rounds : Nat} (some_ : 0 < rounds) :
    Reads (upTo done step rounds) [] [] rest := by
  obtain ⟨fewer, rfl⟩ : ∃ fewer, rounds = fewer + 1 := ⟨rounds - 1, by omega⟩
  apply stops.before
  exact .pure [] rest

private theorem reads_upTo_more {rounds : Nat} (goes : Reads done [] false (front ++ more ++ rest))
    (first : Reads step front as (more ++ rest)) (later : Reads (upTo done step rounds) more others rest) :
    Reads (upTo done step (rounds + 1)) (front ++ more) (as ++ others) rest := by
  refine goes.before (first.bind (later.behind ?_))
  exact .pure _ rest

end Reader

private theorem refuses_more {far : Prop} {newline : Token} {more rest second : List Token} {others : List Node}
    (feed : newline.symbol = .newline) (derived : Lines far second others)
    (whole : Whole newline more rest second) (noElse : Refuses (· = .elseWord) rest) :
    Refuses (· = .elseWord) (more ++ rest) := by
  by_cases none : second = []
  · subst none
    rcases whole with rfl | ⟨same, _⟩
    · exact noElse
    · simp at same
  · obtain ⟨token, found, begins⟩ := begins_of_lines derived none
    have apart : token.symbol ≠ .newline ∧ token.symbol ≠ .elseWord := by
      rcases begins with plain | isVar
      · exact ⟨plain.apart (by decide), plain.apart (by decide)⟩
      · rw [isVar]
        decide
    have held := whole.head feed found apart.1
    exact ⟨token, mem_head?_append held, .inr (by simpa using apart.2)⟩

namespace LinesAreRead

variable {newline feed : Token} {tokens second : List Token} {node : Node} {nodes others : List Node}
  {takes : Bool}

theorem done : LinesAreRead newline [] [] := by
  intro size limit rounds taken rest done whole noElse stops _ _ _ covered
  have positive := noElse.length_pos
  simp only [List.length_append] at covered
  rcases whole with rfl | ⟨same, _⟩
  · exact reads_upTo_done stops (by omega)
  · simp at same

theorem statement (isFeed : newline.symbol = .newline)
    (derived : Statement False takes tokens node) (read : StatementIsRead newline takes tokens node)
    (lines : Lines False second others) (linesRead : LinesAreRead newline second others) :
    LinesAreRead newline (tokens ++ second) (node :: others) := by
  intro size limit rounds taken rest done whole noElse stops goes covered enough room
  -- A statement keeps its first token even where the end of the text stands for its last line feed.
  obtain ⟨front, more, rfl, first, later⟩ := whole.parts
  obtain ⟨token, found, begins⟩ := begins_of_statement derived
  have held := first.head isFeed found (begins.apart (by decide))
  obtain ⟨tail, rfl⟩ : ∃ tail, front = token :: tail := by
    cases front with
    | nil => cases held
    | cons head tail =>
      cases held
      exact ⟨tail, rfl⟩
  simp only [List.cons_append, List.length_cons] at covered enough room
  obtain ⟨fewer, rfl⟩ : ∃ fewer, rounds = fewer + 1 := ⟨rounds - 1, by omega⟩
  have reads := read limit (token :: tail) (more ++ rest) first
    (fun _ => refuses_more isFeed lines later noElse) (by simp at enough ⊢; omega)
  have others_ := linesRead size limit fewer more rest done later noElse stops goes
    (by simp at covered ⊢; omega) (by simp at enough ⊢; omega) (by simp at room ⊢; omega)
  show Reads _ (token :: tail ++ more) ([node] ++ others) rest
  refine reads_upTo_more (goes token _ ?_ ?_) (reads_recovering ?_) others_
  · exact begins.apart (by decide)
  · exact begins.apart (by decide)
  · have noVar : Refuses (· = .varWord) (token :: tail ++ (more ++ rest)) :=
      ⟨token, rfl, .inr (by simpa using begins.apart (by decide))⟩
    refine (reads_accept_none noVar).before (reads.behind ?_)
    exact .pure [node] _

theorem declarations (typed : Declarations tokens nodes) (isFeed : feed.symbol = .newline)
    (linesRead : LinesAreRead newline second others) :
    LinesAreRead newline (tokens ++ feed :: second) (nodes ++ others) := by
  intro size limit rounds taken rest done whole noElse stops goes covered enough room
  have parted : Whole newline taken rest ((tokens ++ [feed]) ++ second) := by simpa using whole
  obtain ⟨front, more, rfl, first, later⟩ := parted.parts
  obtain ⟨ending, rfl, ended⟩ := first.split (List.cons_ne_nil _ _)
  simp only [List.append_assoc] at covered enough room
  have ends := reads_endLine ended isFeed "Expect line break after variable declaration."
  rw [← List.append_assoc, ← List.append_assoc] at covered enough
  obtain ⟨word, behind, rfl, isVar, reads⟩ :=
    reads_sharedType typed ends (by simpa using covered) (by simpa using enough)
  simp only [List.cons_append, List.length_cons] at covered enough room
  obtain ⟨fewer, rfl⟩ : ∃ fewer, rounds = fewer + 1 := ⟨rounds - 1, by omega⟩
  have others_ := linesRead size limit fewer more rest done later noElse stops goes
    (by simp at covered ⊢; omega) (by simp at enough ⊢; omega) (by simp at room ⊢; omega)
  refine reads_upTo_more (goes word _ (by simp [isVar]) (by simp [isVar])) (reads_recovering ?_) others_
  show Reads _ ([word] ++ (behind ++ ending)) _ _
  exact (reads_accept isVar (by decide) _).bind reads

end LinesAreRead

private theorem ne_nil_of_statement {far : Prop} {takes : Bool} {tokens : List Token} {node : Node}
    (derived : Statement far takes tokens node) : tokens ≠ [] := by
  obtain ⟨token, found, _⟩ := begins_of_statement derived
  exact List.ne_nil_of_mem (List.mem_of_mem_head? found)

mutual

private theorem statementIsRead {newline : Token} (feed : newline.symbol = .newline) {takes : Bool}
    {tokens : List Token} {node : Node} :
    Statement False takes tokens node → StatementIsRead newline takes tokens node
  | .expression derived isFeed => .expression derived isFeed
  | .output isOutput derived isFeed => .output isOutput derived isFeed
  | .input isInput names isFeed => .input isInput names isFeed
  | .block isStart isFeed lines isStop isLast =>
    .block isStart isFeed (linesAreRead feed lines) isStop isLast
  | .branch isIf opens derived closes isFeed body =>
    .branch isIf opens derived closes isFeed (statementIsRead feed body) (ne_nil_of_statement body)
  | .branchElse isIf opens derived closes isFeed body near isElse isElseFeed last =>
    .branchElse isIf opens derived closes isFeed (statementIsRead feed body) near isElse isElseFeed
      (statementIsRead feed last) (ne_nil_of_statement last)
  | .loop isWhile opens derived closes isFeed body =>
    .loop isWhile opens derived closes isFeed (statementIsRead feed body) (ne_nil_of_statement body)
  | .counting isFor opens starts tests isSemicolon steps closes isFeed body =>
    .counting isFor opens starts tests isSemicolon steps closes isFeed (statementIsRead feed body)
      (ne_nil_of_statement body)

private theorem linesAreRead {newline : Token} (feed : newline.symbol = .newline) {tokens : List Token}
    {nodes : List Node} : Lines False tokens nodes → LinesAreRead newline tokens nodes
  | .done => .done
  | .declarations typed isFeed lines => .declarations typed isFeed (linesAreRead feed lines)
  | .statement derived lines =>
    .statement feed derived (statementIsRead feed derived) lines (linesAreRead feed lines)

end

theorem ofTokens?_of_lines {newline last : Token} {tokens full : List Token} {nodes : List Node}
    (feed : newline.symbol = .newline) (finished : last.symbol = .endOfText)
    (whole : Whole newline tokens [last] full) (lines : Lines False full nodes) :
    Program.ofTokens? (tokens ++ [last]) = some ⟨nodes, []⟩ := by
  have noElse : Refuses (· = .elseWord) [last] := ⟨last, rfl, .inl finished⟩
  have limit := Nat.le_refl (tokens ++ [last]).length
  have reads := linesAreRead feed lines _ _ _ tokens [last] atEnd whole noElse
    (reads_atEnd_last finished []) (fun token others _ opened => reads_atEnd_inside opened others) limit limit
    limit []
  unfold Program.ofTokens? Program.reader
  rw [reads]

end Cfpl.Program
