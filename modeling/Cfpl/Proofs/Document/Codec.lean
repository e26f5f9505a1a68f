import Cfpl.Document.Program
import Cfpl.Proofs.Decimal.Normal

/-! Documents are read back as what they were written from. So what is written of a program that was read
from some document is a document of the same program. -/

namespace Cfpl.Document

variable {α β : Type}

section Fields

variable {name other : String} {value : Json} {fields : Fields} {node : Except Flaw Tree}
  {children : List Child}

@[simp] theorem ok_bind (a : α) (next : α → Except Flaw β) : (Except.ok a >>= next) = next a := rfl

@[simp] theorem field_first : field ((name, value) :: fields) name = .ok value := by
  simp only [field, List.lookup_cons_self]

@[simp] theorem field_later (apart : name ≠ other) :
    field ((other, value) :: fields) name = field fields name := by
  simp only [field, List.lookup_cons, beq_eq_false_iff_ne.mpr apart]

@[simp] theorem optionalField_first : optionalField ((name, value) :: fields) name = value := by
  simp only [optionalField, List.lookup_cons_self, Option.getD_some]

@[simp] theorem optionalField_later (apart : name ≠ other) :
    optionalField ((other, value) :: fields) name = optionalField fields name := by
  simp only [optionalField, List.lookup_cons, beq_eq_false_iff_ne.mpr apart]

@[simp] theorem child_first : child ((name, node) :: children) name = node := by
  simp only [child, List.lookup_cons_self, Option.getD_some]

@[simp] theorem child_later (apart : name ≠ other) :
    child ((other, node) :: children) name = child children name := by
  simp only [child, List.lookup_cons, beq_eq_false_iff_ne.mpr apart]

@[simp] theorem optionalChild_first : optionalChild ((name, node) :: children) name = node := by
  simp only [optionalChild, List.lookup_cons_self, Option.getD_some]

@[simp] theorem optionalChild_later (apart : name ≠ other) :
    optionalChild ((other, node) :: children) name = optionalChild children name := by
  simp only [optionalChild, List.lookup_cons, beq_eq_false_iff_ne.mpr apart]

end Fields

theorem named_string {ofName? : String → Option α} {text : String} {a : α} (known : ofName? text = some a) :
    named ofName? (.string text) = .ok a := by
  simp only [named, known]

private theorem optional_getD {read : Json → Except Flaw α} {write : α → Json}
    (back : ∀ a, read (write a) = .ok a)
    (given : ∀ a, write a ≠ .null) (a : Option α) : optional read ((a.map write).getD .null) = .ok a := by
  cases a with
  | none => rfl
  | some a =>
    have same : optional read (write a) = some <$> read (write a) := by
      unfold optional
      split
      · next empty => exact absurd empty (given a)
      · rfl
    rw [Option.map_some, Option.getD_some, same, back a]
    rfl

private theorem float_written (x : Float) :
    float (if x.isFinite then .float x else .string (Decimal.documentLayout.write x)) = .ok x := by
  split
  · rfl
  · next infinite => simp only [float, Decimal.read?_write (eq_false_of_ne_true infinite)]

private theorem datum_ofDatum (value : Datum) : datum (ofDatum value) = .ok value := by
  cases value with
  | plain kind other data =>
    simp [ofDatum, datum, named_string (Kind.ofLabel?_label kind), other]
    rfl
  | float x => simp [ofDatum, datum, named_string (Kind.ofLabel?_label .float), float_written]

private theorem optional_datum (literal : Option Datum) :
    optional datum ((literal.map ofDatum).getD .null) = .ok literal := by
  refine optional_getD datum_ofDatum (fun value => ?_) literal
  cases value <;> exact fun same => nomatch same

private theorem mark_ofMark (token : Mark) : mark (ofMark token) = .ok token := by
  simp [ofMark, mark, named_string (Symbol.ofName?_name token.symbol), optional_datum]

private theorem optional_mark (token : Option Mark) :
    optional mark ((token.map ofMark).getD .null) = .ok token :=
  optional_getD mark_ofMark (fun _ same => nomatch same) token

private theorem mapM_mark (names : List Mark) : (names.map ofMark).mapM mark = .ok names := by
  induction names with
  | nil => rfl
  | cons name names ih => simp [mark_ofMark, ih]

private theorem tree_tagged (type : String) (fields : Fields) : tree (tagged type fields) =
    treeOf (("type", .string type) :: fields) (("type", .error .notNode) :: children fields) := by
  have typeField : tree (.string type) = .error .notNode := by simp [tree]
  rw [tagged, tree, children, typeField]

mutual

private theorem tree_ofTree : ∀ node : Tree, tree (ofTree node) = .ok node
  | .absent => rfl
  | .list items => by simp [ofTree, tree, trees_ofTrees items, Except.map]
  | .expression body => by simp [ofTree, tree_tagged, treeOf, children, tree_ofTree body]
  | .output body => by simp [ofTree, tree_tagged, treeOf, children, tree_ofTree body]
  | .declare name initial dataType => by
    simp [ofTree, tree_tagged, treeOf, children, mark_ofMark name, tree_ofTree initial,
      optional_mark dataType]
  | .block body => by
    -- A field with statements is read as a list before the list is taken apart.
    have list : tree (.array (ofTrees body)) = .ok (.list body) := by
      simp [tree, trees_ofTrees body, Except.map]
    simp [ofTree, tree_tagged, treeOf, children, list, statementsIn, items]
  | .input names => by simp [ofTree, tree_tagged, treeOf, items, mapM_mark names]
  | .branch condition thenBranch elseBranch => by
    simp [ofTree, tree_tagged, treeOf, children, tree_ofTree condition, tree_ofTree thenBranch,
      tree_ofTree elseBranch]
  | .loop condition body => by
    simp [ofTree, tree_tagged, treeOf, children, tree_ofTree condition, tree_ofTree body]
  | .literal value => by simp [ofTree, tree_tagged, treeOf, datum_ofDatum value]
  | .grouping body => by simp [ofTree, tree_tagged, treeOf, children, tree_ofTree body]
  | .unary operator right => by
    simp [ofTree, tree_tagged, treeOf, children, mark_ofMark operator, tree_ofTree right]
  | .binary left operator right => by
    simp [ofTree, tree_tagged, treeOf, children, tree_ofTree left, mark_ofMark operator,
      tree_ofTree right]
  | .logical left operator right => by
    simp [ofTree, tree_tagged, treeOf, children, tree_ofTree left, mark_ofMark operator,
      tree_ofTree right]
  | .reference name => by simp [ofTree, tree_tagged, treeOf, mark_ofMark name]
  | .assign name value => by
    simp [ofTree, tree_tagged, treeOf, children, mark_ofMark name, tree_ofTree value]
termination_by structural node => node

private theorem trees_ofTrees : ∀ nodes : List Tree, trees (ofTrees nodes) = .ok nodes
  | [] => rfl
  | first :: rest => by simp [ofTrees, trees, tree_ofTree first, trees_ofTrees rest]
termination_by structural nodes => nodes

end

theorem program_ofProgram (statements : List Tree) : program (ofProgram statements) = .ok statements := by
  simp [ofProgram, tagged, program, items, trees_ofTrees statements]

end Cfpl.Document
