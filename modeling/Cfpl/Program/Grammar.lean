import Cfpl.Node

/-! The grammar of programs, as a relation between a row of tokens and the nodes that it stands for. The
relation knows nothing about how a program is read: it has no first token, no limit and no recovery.
Statements and lines are derived in two ways. If `far` holds, an `ELSE` may belong to any condition that
stands before it, so a row may stand for several nodes; if not, it belongs to the nearest condition
that can take it. -/

namespace Cfpl.Program.Grammar

/-- The levels of expressions, from the weakest to the strongest. -/
inductive Level where
  | assignment
  | disjunction
  | conjunction
  | equality
  | comparison
  | sum
  | product
  | unary
  | primary
  deriving DecidableEq, Repr

namespace Level

def next : Level → Level
  | assignment => disjunction
  | disjunction => conjunction
  | conjunction => equality
  | equality => comparison
  | comparison => sum
  | sum => product
  | product => unary
  | unary | primary => primary

def operators : Level → List Symbol
  | disjunction => [.orWord]
  | conjunction => [.andWord]
  | equality => [.equalEqual, .bangEqual]
  | comparison => [.greater, .greaterEqual, .less, .lessEqual, .ampersand]
  | sum => [.plus, .minus]
  | product => [.star, .slash, .percent]
  | assignment | unary | primary => []

def join : Level → Node → Token → Node → Node
  | disjunction | conjunction => .logical
  | _ => .binary

end Level

/-- The row of tokens is an expression of the level, and the node is what it means. -/
inductive Expression : Level → List Token → Node → Prop where
  | stronger {level : Level} {tokens : List Token} {node : Node} :
    Expression level.next tokens node → Expression level tokens node
  | assign {name equals : Token} {tokens : List Token} {value : Node} :
    name.symbol = .identifier → equals.symbol = .equal → Expression .assignment tokens value →
    Expression .assignment (name :: equals :: tokens) (.assign name value)
  | joined {level : Level} {first second : List Token} {operator : Token} {left right : Node} :
    operator.symbol ∈ level.operators → Expression level first left →
    Expression level.next second right →
    Expression level (first ++ operator :: second) (level.join left operator right)
  | unary {operator : Token} {tokens : List Token} {right : Node} :
    operator.symbol ∈ [Symbol.notWord, .bang, .minus] → Expression .unary tokens right →
    Expression .unary (operator :: tokens) (.unary operator right)
  | truth {token : Token} :
    token.symbol = .trueWord → Expression .primary [token] (.literal (some (.boolean true)))
  | falsehood {token : Token} :
    token.symbol = .falseWord → Expression .primary [token] (.literal (some (.boolean false)))
  | literal {token : Token} :
    token.symbol ∈ [Symbol.number, .text, .character, .lineBreak] →
    Expression .primary [token] (.literal token.literal)
  | reference {token : Token} :
    token.symbol = .identifier → Expression .primary [token] (.reference token)
  | grouping {opening closing : Token} {tokens : List Token} {body : Node} :
    opening.symbol = .leftParen → closing.symbol = .rightParen →
    Expression .assignment tokens body →
    Expression .primary (opening :: tokens ++ [closing]) (.grouping body)

inductive Item : List Token → Token → Node → Prop where
  | plain {name : Token} : name.symbol = .identifier → Item [name] name .absent
  | initialized {name equals : Token} {tokens : List Token} {value : Node} :
    name.symbol = .identifier → equals.symbol = .equal → Expression .assignment tokens value →
    Item (name :: equals :: tokens) name value

inductive Items : List Token → List (Token × Node) → Prop where
  | single {tokens : List Token} {name : Token} {initial : Node} :
    Item tokens name initial → Items tokens [(name, initial)]
  | more {first rest : List Token} {separator name : Token} {initial : Node}
      {items : List (Token × Node)} :
    Item first name initial → separator.symbol = .comma → Items rest items →
    Items (first ++ separator :: rest) ((name, initial) :: items)

inductive Declarations : List Token → List Node → Prop where
  | typed {word asWord dataType : Token} {tokens : List Token} {items : List (Token × Node)} :
    word.symbol = .varWord → asWord.symbol = .asWord → dataType.symbol.isDataType →
    Items tokens items →
    Declarations (word :: tokens ++ [asWord, dataType])
      (items.map fun (name, initial) => .declare name initial (some dataType))

inductive Names : List Token → List Token → Prop where
  | single {name : Token} : name.symbol = .identifier → Names [name] [name]
  | more {name separator : Token} {tokens names : List Token} :
    name.symbol = .identifier → separator.symbol = .comma → Names tokens names →
    Names (name :: separator :: tokens) (name :: names)

/-- What a counting loop starts with, up to its first semicolon. -/
inductive Start : List Token → List Node → Prop where
  | nothing {semicolon : Token} : semicolon.symbol = .semicolon → Start [semicolon] []
  | declarations {tokens : List Token} {semicolon : Token} {nodes : List Node} :
    Declarations tokens nodes → semicolon.symbol = .semicolon → Start (tokens ++ [semicolon]) nodes
  | expression {tokens : List Token} {semicolon : Token} {body : Node} :
    Expression .assignment tokens body → semicolon.symbol = .semicolon →
    Start (tokens ++ [semicolon]) [.expression body]

inductive Clause : List Token → Option Node → Prop where
  | nothing : Clause [] none
  | some {tokens : List Token} {body : Node} :
    Expression .assignment tokens body → Clause tokens (some body)

inductive Step : List Token → Option Node → Prop where
  | clause {tokens : List Token} {body : Option Node} : Clause tokens body → Step tokens body
  | closed {tokens : List Token} {semicolon : Token} {body : Node} :
    Expression .assignment tokens body → semicolon.symbol = .semicolon →
    Step (tokens ++ [semicolon]) (some body)

def conditionOr (condition : Option Node) : Node :=
  condition.getD (.literal (some (.boolean true)))

def stepped (body : Node) : Option Node → Node
  | none => body
  | some step => .block [body, .expression step]

def started : List Node → Node → Node
  | [], loop => loop
  | start, loop => .block (start ++ [loop])

mutual

/-- The row of tokens is a statement. `takesElse` tells whether it ends in a condition that would take an
`ELSE` directly behind it. -/
inductive Statement (far : Prop) : (takesElse : Bool) → List Token → Node → Prop where
  | expression {tokens : List Token} {newline : Token} {body : Node} :
    Expression .assignment tokens body → newline.symbol = .newline →
    Statement far false (tokens ++ [newline]) (.expression body)
  | output {word newline : Token} {tokens : List Token} {body : Node} :
    word.symbol = .outputWord → Expression .assignment tokens body → newline.symbol = .newline →
    Statement far false (word :: tokens ++ [newline]) (.output body)
  | input {word newline : Token} {tokens names : List Token} :
    word.symbol = .inputWord → Names tokens names → newline.symbol = .newline →
    Statement far false (word :: tokens ++ [newline]) (.input names)
  | block {word newline stop last : Token} {tokens : List Token} {body : List Node} :
    word.symbol = .start → newline.symbol = .newline → Lines far tokens body → stop.symbol = .stop →
    last.symbol = .newline →
    Statement far false (word :: newline :: tokens ++ [stop, last]) (.block body)
  | branch {word opening closing newline : Token} {tokens thenTokens : List Token}
      {condition thenBranch : Node} {takesElse : Bool} :
    word.symbol = .ifWord → opening.symbol = .leftParen → Expression .assignment tokens condition →
    closing.symbol = .rightParen → newline.symbol = .newline →
    Statement far takesElse thenTokens thenBranch →
    Statement far true (word :: opening :: tokens ++ closing :: newline :: thenTokens)
      (.branch condition thenBranch .absent)
  | branchElse {word opening closing newline elseWord elseNewline : Token}
      {tokens thenTokens elseTokens : List Token} {condition thenBranch elseBranch : Node}
      {thenTakes takesElse : Bool} :
    word.symbol = .ifWord → opening.symbol = .leftParen → Expression .assignment tokens condition →
    closing.symbol = .rightParen → newline.symbol = .newline →
    Statement far thenTakes thenTokens thenBranch → (thenTakes → far) →
    elseWord.symbol = .elseWord → elseNewline.symbol = .newline →
    Statement far takesElse elseTokens elseBranch →
    Statement far takesElse (word :: opening :: tokens ++ closing :: newline :: thenTokens ++
      elseWord :: elseNewline :: elseTokens) (.branch condition thenBranch elseBranch)
  | loop {word opening closing newline : Token} {tokens bodyTokens : List Token}
      {condition body : Node} {takesElse : Bool} :
    word.symbol = .whileWord → opening.symbol = .leftParen →
    Expression .assignment tokens condition → closing.symbol = .rightParen →
    newline.symbol = .newline → Statement far takesElse bodyTokens body →
    Statement far takesElse (word :: opening :: tokens ++ closing :: newline :: bodyTokens)
      (.loop condition body)
  | counting {word opening semicolon closing newline : Token}
      {startTokens conditionTokens stepTokens bodyTokens : List Token} {start : List Node}
      {condition step : Option Node} {body : Node} {takesElse : Bool} :
    word.symbol = .forWord → opening.symbol = .leftParen → Start startTokens start →
    Clause conditionTokens condition → semicolon.symbol = .semicolon → Step stepTokens step →
    closing.symbol = .rightParen → newline.symbol = .newline →
    Statement far takesElse bodyTokens body →
    Statement far takesElse (word :: opening :: startTokens ++ conditionTokens ++
      semicolon :: stepTokens ++ closing :: newline :: bodyTokens)
      (started start (.loop (conditionOr condition) (stepped body step)))

/-- The row of tokens is a sequence of declarations and statements. A statement that would take an
`ELSE` is not followed by one, since no statement begins with it. -/
inductive Lines (far : Prop) : List Token → List Node → Prop where
  | done : Lines far [] []
  | declarations {tokens rest : List Token} {newline : Token} {nodes more : List Node} :
    Declarations tokens nodes → newline.symbol = .newline → Lines far rest more →
    Lines far (tokens ++ newline :: rest) (nodes ++ more)
  | statement {tokens rest : List Token} {node : Node} {more : List Node} {takesElse : Bool} :
    Statement far takesElse tokens node → Lines far rest more → Lines far (tokens ++ rest) (node :: more)

end

end Cfpl.Program.Grammar
