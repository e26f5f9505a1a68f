import Cfpl.Document.Program
import Cfpl.Proofs.Json.RoundTrip
import Cfpl.Proofs.Run.Reached
import Cfpl.Proofs.Source.Lines

/-! Every program that is read from a text has a document, and this is found again in the JSON that is written of it.
The only numbers of a document that could be too long for this are those of the lines. -/

namespace Cfpl

def Token.Short (token : Token) : Prop := token.line.natAbs < 10 ^ Field.digitLimit

namespace Document

open Json (Regular)

private theorem regular_tagged {type : String} {fields : List (String × Json)}
    (apart : ("type" :: fields.map Prod.fst).Nodup) (all : ∀ field ∈ fields, field.2.Regular) :
    (tagged type fields).Regular :=
  .object apart (List.forall_mem_cons.mpr ⟨.string type, all⟩)

private theorem regular_ofDatum {value : Value} (proper : value.Proper) (some_ : value.kind ≠ .absent) :
    (ofDatum (.ofValue value)).Regular := by
  have fields {kind : Kind} {data : Json} (regular : data.Regular) :
      Regular (.object [("kind", .string kind.label), ("data", data)]) :=
    .object (by simp) (List.forall_mem_cons.mpr ⟨.string _, List.forall_mem_singleton.mpr regular⟩)
  cases value with
  | integer n =>
    have range : -2147483648 ≤ n ∧ n ≤ 2147483647 := proper
    have enough : 10 ^ 10 ≤ 10 ^ Field.digitLimit := Nat.pow_le_pow_right (by decide) (by decide)
    exact fields (.int (by omega))
  | float x =>
    refine fields ?_
    split
    · next finite => exact .float finite
    · exact .string _
  | character c => exact fields (.string _)
  | boolean truth => exact fields (.bool truth)
  | string text => exact fields (.string text)
  | absent => exact absurd rfl some_

private theorem regular_ofMark {token : Token} (spelled : token.Spelled) (short : token.Short) :
    (ofMark (.ofToken token)).Regular := by
  have literal : Regular (((Mark.ofToken token).literal.map ofDatum).getD .null) := by
    unfold Mark.ofToken
    cases found : token.literal with
    | none => exact .null
    | some value =>
      obtain ⟨proper, some_⟩ := spelled.2 value found
      exact regular_ofDatum proper some_
  refine regular_tagged (by simp) ?_
  simp only [List.forall_mem_cons]
  exact ⟨.string _, literal, .int short, List.forall_mem_nil _⟩

end Document

namespace Node

open Document (Tree ofTree ofTrees ofMark regular_tagged regular_ofDatum regular_ofMark)

/-- A document of the node, and one that JSON holds as it is if the lines of the tokens are `short`. -/
structure Documented (short : Prop) (node : Node) (tree : Tree) : Prop where
  made : Tree.ofNode? node = some tree
  regular : short → (ofTree tree).Regular

variable {given : Token → Prop} {node : Node} (spelled : ∀ token, given token → token.Spelled)

/-- The tokens of a program that is short enough. -/
private abbrev Short (given : Token → Prop) : Prop := ∀ token, given token → token.Short

include spelled

private theorem ExpressionFrom.documented (from_ : ExpressionFrom given node) :
    ∃ tree, node.Documented (Short given) tree := by
  have mark {token : Token} (held : given token) (short : Short given) : (ofMark (.ofToken token)).Regular :=
    regular_ofMark (spelled token held) (short token held)
  induction from_ with
  | truth value =>
    have regular := @regular_ofDatum (.boolean value) trivial nofun
    exact ⟨.literal (.ofValue (.boolean value)), rfl, fun _ => regular_tagged (by simp) (by simpa using regular)⟩
  | literal held carries =>
    obtain ⟨value, found⟩ := Option.isSome_iff_exists.mp ((spelled _ held).1.trans carries)
    obtain ⟨proper, some_⟩ := (spelled _ held).2 value found
    refine ⟨.literal (.ofValue value), by simp [Tree.ofNode?, found], fun _ => regular_tagged (by simp) ?_⟩
    simpa using regular_ofDatum proper some_
  | grouping _ body =>
    obtain ⟨body, made, regular⟩ := body
    exact ⟨.grouping body, by simp [Tree.ofNode?, made], fun short =>
      regular_tagged (by simp) (by simp [regular short])⟩
  | @unary operator _ held _ _ right =>
    obtain ⟨right, made, regular⟩ := right
    exact ⟨.unary (.ofToken operator) right, by simp [Tree.ofNode?, made], fun short =>
      regular_tagged (by simp) (by simp [regular short, mark held short])⟩
  | @binary operator _ _ held _ _ _ left right =>
    obtain ⟨left, madeLeft, regularLeft⟩ := left
    obtain ⟨right, madeRight, regularRight⟩ := right
    exact ⟨.binary left (.ofToken operator) right, by simp [Tree.ofNode?, madeLeft, madeRight], fun short =>
      regular_tagged (by simp) (by simp [regularLeft short, regularRight short, mark held short])⟩
  | @logical operator _ _ held _ _ _ left right =>
    obtain ⟨left, madeLeft, regularLeft⟩ := left
    obtain ⟨right, madeRight, regularRight⟩ := right
    exact ⟨.logical left (.ofToken operator) right, by simp [Tree.ofNode?, madeLeft, madeRight], fun short =>
      regular_tagged (by simp) (by simp [regularLeft short, regularRight short, mark held short])⟩
  | @reference name held _ =>
    exact ⟨.reference (.ofToken name), rfl, fun short => regular_tagged (by simp) (by simp [mark held short])⟩
  | @assign name _ held _ _ value =>
    obtain ⟨value, made, regular⟩ := value
    exact ⟨.assign (.ofToken name) value, by simp [Tree.ofNode?, made], fun short =>
      regular_tagged (by simp) (by simp [regular short, mark held short])⟩

omit spelled in
private theorem documented_all {short : Prop} {nodes : List Node}
    (all : ∀ node ∈ nodes, ∃ tree, node.Documented short tree) :
    ∃ trees, Tree.ofNodes? nodes = some trees ∧ (short → ∀ item ∈ ofTrees trees, item.Regular) := by
  induction nodes with
  | nil => exact ⟨[], rfl, fun _ => List.forall_mem_nil _⟩
  | cons first rest ih =>
    obtain ⟨⟨tree, made, regular⟩, others⟩ := List.forall_mem_cons.mp all
    obtain ⟨trees, madeRest, regularRest⟩ := ih others
    exact ⟨tree :: trees, by simp [Tree.ofNodes?, made, madeRest], fun short =>
      List.forall_mem_cons.mpr ⟨regular short, regularRest short⟩⟩

private theorem StatementFrom.documented (from_ : StatementFrom given node) :
    ∃ tree, node.Documented (Short given) tree := by
  have mark {token : Token} (held : given token) (short : Short given) : (ofMark (.ofToken token)).Regular :=
    regular_ofMark (spelled token held) (short token held)
  induction from_ with
  | expression body =>
    obtain ⟨body, made, regular⟩ := body.documented spelled
    exact ⟨.expression body, by simp [Tree.ofNode?, made], fun short =>
      regular_tagged (by simp) (by simp [regular short])⟩
  | output body =>
    obtain ⟨body, made, regular⟩ := body.documented spelled
    exact ⟨.output body, by simp [Tree.ofNode?, made], fun short =>
      regular_tagged (by simp) (by simp [regular short])⟩
  | @declare name dataType initial heldName _ heldType _ starts =>
    have initialized : ∃ tree, initial.Documented (Short given) tree := by
      rcases starts with rfl | expression
      · exact ⟨.absent, rfl, fun _ => .null⟩
      · exact expression.documented spelled
    obtain ⟨initial, made, regular⟩ := initialized
    exact ⟨.declare (.ofToken name) initial (some (.ofToken dataType)), by simp [Tree.ofNode?, made], fun short =>
      regular_tagged (by simp) (by simp [mark heldName short, mark heldType short, regular short])⟩
  | block _ inside =>
    obtain ⟨trees, made, regular⟩ := documented_all inside
    exact ⟨.block trees, by simp [Tree.ofNode?, made], fun short =>
      regular_tagged (by simp) (by simpa using Json.Regular.array (regular short))⟩
  | @input names _ held =>
    refine ⟨.input (names.map .ofToken), rfl, fun short => regular_tagged (by simp) ?_⟩
    have regular : ∀ name ∈ names, (ofMark (.ofToken name)).Regular := fun name member =>
      mark (held name member).1 short
    simpa [Function.comp_def] using Json.Regular.array (List.forall_mem_map.mpr regular)
  | branch condition _ _ thenBranch =>
    obtain ⟨condition, made, regular⟩ := condition.documented spelled
    obtain ⟨thenBranch, madeThen, regularThen⟩ := thenBranch
    exact ⟨.branch condition thenBranch .absent, by simp [Tree.ofNode?, made, madeThen], fun short =>
      regular_tagged (by simp) (by simp [regular short, regularThen short, ofTree, Json.Regular.null])⟩
  | branchElse condition _ _ _ _ thenBranch elseBranch =>
    obtain ⟨condition, made, regular⟩ := condition.documented spelled
    obtain ⟨thenBranch, madeThen, regularThen⟩ := thenBranch
    obtain ⟨elseBranch, madeElse, regularElse⟩ := elseBranch
    exact ⟨.branch condition thenBranch elseBranch, by simp [Tree.ofNode?, made, madeThen, madeElse], fun short =>
      regular_tagged (by simp) (by simp [regular short, regularThen short, regularElse short])⟩
  | loop condition _ _ body =>
    obtain ⟨condition, made, regular⟩ := condition.documented spelled
    obtain ⟨body, madeBody, regularBody⟩ := body
    exact ⟨.loop condition body, by simp [Tree.ofNode?, made, madeBody], fun short =>
      regular_tagged (by simp) (by simp [regular short, regularBody short])⟩

end Node

namespace Program

private theorem documented_ofSource (source : String) :
    ∃ document, Document.ofStatements? (ofSource source).statements = some document ∧
      (1 + Source.lineFeeds source.toList < 10 ^ Field.digitLimit → document.Regular) := by
  obtain ⟨trees, made, regular⟩ := Node.documented_all fun node member =>
    (statements_from_tokens source node member).documented (Source.spelled_tokens source)
  refine ⟨Document.ofProgram trees, by rw [Document.ofStatements?, made]; rfl, fun few => ?_⟩
  have short : ∀ token ∈ Source.tokens source, token.Short := by
    intro token member
    obtain ⟨low, high⟩ := Source.line_of_mem_tokens member
    show token.line.natAbs < 10 ^ Field.digitLimit
    omega
  rw [Document.ofProgram]
  exact Document.regular_tagged (by simp) (by simpa using Json.Regular.array (regular short))

theorem hasDocument (source : String) :
    ∃ document, Document.ofStatements? (ofSource source).statements = some document := by
  obtain ⟨document, written, _⟩ := documented_ofSource source
  exact ⟨document, written⟩

/-- The document of a text is read as it was written, unless the number of a line is too long to be read. -/
theorem document_returns {source : String} (few : 1 + Source.lineFeeds source.toList < 10 ^ Field.digitLimit)
    {document : Json} (written : Document.ofStatements? (ofSource source).statements = some document) :
    Json.parse? document.indented = some document := by
  obtain ⟨same, found, regular⟩ := documented_ofSource source
  rw [written] at found
  cases found
  exact Json.parse?_indented (regular few)

end Program

end Cfpl
