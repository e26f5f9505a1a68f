import Cfpl.Scope.Chain

/-! All scopes that were ever made, as a tree. Scope 0 is the root, and every other scope was made inside one that was
there before it. Where a name is looked for is also said without the path that looking up and assigning take: which
scope lies directly in which, what each has itself, and which of the scopes from one outward is the nearest to have
a variable of the name. -/

namespace Cfpl

structure ScopeTree where
  /-- The scopes by number: the frame of each and the number of the scope around it. -/
  nodes : List (Frame × Nat)

namespace ScopeTree

def root : ScopeTree := ⟨[(.empty, 0)]⟩

def frame? (tree : ScopeTree) (scope : Nat) : Option Frame := (tree.nodes[scope]?).map (·.1)

/-- The scopes from one outward. The root ends the path, and so would a scope that is said to lie in one
that was made after it. -/
def path (tree : ScopeTree) (scope : Nat) : List Nat :=
  match tree.nodes[scope]? with
  | none => []
  | some (_, parent) => if parent < scope then scope :: tree.path parent else [scope]

def child (tree : ScopeTree) (scope : Nat) : ScopeTree := ⟨tree.nodes ++ [(.empty, scope)]⟩

def setFrame (tree : ScopeTree) (scope : Nat) (frame : Frame) : ScopeTree :=
  ⟨tree.nodes.modify scope fun node => (frame, node.2)⟩

def define (tree : ScopeTree) (scope : Nat) (name : String) (value : Value) : ScopeTree :=
  match tree.frame? scope with
  | some frame => tree.setFrame scope (frame.define name value)
  | none => tree

def get (tree : ScopeTree) (scope : Nat) (name : String) : Except Fault Value :=
  match (tree.path scope).findSome? fun holder => (tree.frame? holder).bind (·.get? name) with
  | some value => .ok value
  | none => .error (.undefinedVariable name)

def assign (tree : ScopeTree) (scope : Nat) (name : String) (value : Value) :
    Except Fault ScopeTree :=
  let found := (tree.path scope).findSome? fun holder =>
    ((tree.frame? holder).bind (·.assign? name value)).map fun result => (holder, result)
  match found with
  | some (holder, result) => result.map (tree.setFrame holder)
  | none => .error (.undefinedVariable name)

inductive Call where
  | child (scope : Nat)
  | define (scope : Nat) (name : String) (value : Value)
  | assign (scope : Nat) (name : String) (value : Value)

namespace Call

def scope : Call → Nat
  | child scope | define scope _ _ | assign scope _ _ => scope

end Call

/-- The tree that a call leaves, also when it is refused. -/
def after (tree : ScopeTree) : Call → ScopeTree
  | .child scope => tree.child scope
  | .define scope name value => tree.define scope name value
  | .assign scope name value => match tree.assign scope name value with
    | .ok changed => changed
    | .error _ => tree

/-- The trees that calls on their scopes lead to. -/
inductive Reached : ScopeTree → Prop
  | root : Reached root
  | call {tree : ScopeTree} (reached : Reached tree) (call : Call) (inTree : call.scope < tree.nodes.length) :
    Reached (tree.after call)

def held? (tree : ScopeTree) (scope : Nat) (name : String) : Option Value :=
  (tree.frame? scope).bind (·.get? name)

def parent? (tree : ScopeTree) (scope : Nat) : Option Nat :=
  if scope = 0 then none else (tree.nodes[scope]?).map (·.2)

/-- From a scope outward, the first one that has a variable of the name. -/
inductive Nearest (tree : ScopeTree) (name : String) : (scope holder : Nat) → Prop
  | here {scope : Nat} (has : (tree.held? scope name).isSome) : Nearest tree name scope scope
  | outward {scope parent holder : Nat} (lacks : tree.held? scope name = none)
    (around : tree.parent? scope = some parent) (further : Nearest tree name parent holder) :
    Nearest tree name scope holder

/-- Why a value cannot be assigned to a name in a scope. -/
inductive Refusal (tree : ScopeTree) (scope : Nat) (name : String) (value : Value) : Fault → Prop
  | undefined (nowhere : ∀ holder, ¬tree.Nearest name scope holder) :
    Refusal tree scope name value (.undefinedVariable name)
  | kind {holder : Nat} {current : Value} (nearest : tree.Nearest name scope holder)
    (held : tree.held? holder name = some current) (some_ : current.kind ≠ .absent)
    (other : current.kind ≠ value.kind) :
    Refusal tree scope name value (.kindMismatch name current.kind value.kind)

/-- One variable of one scope has a new value. It is seen from the scopes to which it is the nearest of its
name, and what is seen from any other scope or under any other name is what was seen there before. -/
structure Rebound (before after : ScopeTree) (holder : Nat) (name : String) (value : Value) : Prop where
  count : after.nodes.length = before.nodes.length
  parents : ∀ scope, after.parent? scope = before.parent? scope
  held : ∀ scope asked, after.held? scope asked =
    if scope = holder ∧ asked = name then some value else before.held? scope asked
  seen : ∀ scope, before.Nearest name scope holder → after.get scope name = .ok value
  unseen : ∀ scope, ¬before.Nearest name scope holder → after.get scope name = before.get scope name
  others : ∀ scope asked, asked ≠ name → after.get scope asked = before.get scope asked

end ScopeTree

end Cfpl
