import Cfpl.Proofs.Scope.Tree

/-! The two ways to keep scopes agree. A tree holds all scopes that were ever made; a chain holds the ones in effect at
one place, and forgets a scope that is left. Whatever a program does to its scopes, it finds the same in both. -/

namespace Cfpl

namespace ScopeTree

/-- The scopes in effect at one of the tree: its own, and those that it lies in. -/
inductive Chain (tree : ScopeTree) : Nat → Scopes → Prop
  | outermost {frame : Frame} (there : tree.frame? 0 = some frame) : Chain tree 0 (.single frame)
  | inside {scope parent : Nat} {frame : Frame} {around : Scopes} (there : tree.frame? scope = some frame)
    (outward : tree.parent? scope = some parent) (further : Chain tree parent around) :
    Chain tree scope ⟨frame, around.frames⟩

end ScopeTree

inductive ScopeMove where
  | enter
  | leave
  | define (name : String) (value : Value)
  | assign (name : String) (value : Value)

def Scopes.move (scopes : Scopes) : ScopeMove → Except Fault Scopes
  | .enter => .ok scopes.enter
  | .leave => .ok scopes.leave
  | .define name value => .ok (scopes.define name value)
  | .assign name value => scopes.assign name value

def ScopeTree.move : ScopeTree × Nat → ScopeMove → Except Fault (ScopeTree × Nat)
  | (tree, scope), .enter => .ok (tree.child scope, tree.nodes.length)
  | (tree, scope), .leave => .ok (tree, (tree.parent? scope).getD scope)
  | (tree, scope), .define name value => .ok (tree.define scope name value, scope)
  | (tree, scope), .assign name value => (tree.assign scope name value).map fun changed => (changed, scope)

/-- Both are refused for the same reason, or neither is and what they leave belongs together. -/
inductive InStep {α β : Type} (together : α → β → Prop) : Except Fault α → Except Fault β → Prop
  | ok {a : α} {b : β} (left : together a b) : InStep together (.ok a) (.ok b)
  | error (fault : Fault) : InStep together (.error fault) (.error fault)

namespace InStep

variable {α β γ δ : Type} {together : α → β → Prop} {after : γ → δ → Prop} {first : Except Fault α}
  {second : Except Fault β}

theorem bind {next : α → Except Fault γ} {other : β → Except Fault δ} (inStep : InStep together first second)
    (further : ∀ a b, together a b → InStep after (next a) (other b)) :
    InStep after (first >>= next) (second >>= other) := by
  cases inStep with
  | ok left => exact further _ _ left
  | error fault => exact .error fault

theorem map {f : α → γ} {g : β → δ} (inStep : InStep together first second)
    (moved : ∀ a b, together a b → after (f a) (g b)) : InStep after (first.map f) (second.map g) := by
  cases inStep with
  | ok left => exact .ok (moved _ _ left)
  | error fault => exact .error fault

theorem mono {wider : α → β → Prop} (inStep : InStep together first second)
    (weaker : ∀ a b, together a b → wider a b) : InStep wider first second := by
  cases inStep with
  | ok left => exact .ok (weaker _ _ left)
  | error fault => exact .error fault

end InStep

namespace ScopeTree

variable {tree : ScopeTree} {scopes : Scopes} {frame : Frame} {scope holder parent : Nat}

private theorem path_outermost (there : tree.frame? 0 = some frame) : tree.path 0 = [0] := by
  obtain ⟨node, found, _⟩ := Option.map_eq_some_iff.mp there
  rw [path, found]
  exact if_neg (Nat.not_lt_zero _)

private theorem path_inside (ordered : tree.Ordered) (there : tree.frame? scope = some frame)
    (outward : tree.parent? scope = some parent) : tree.path scope = scope :: tree.path parent := by
  obtain ⟨node, found, _⟩ := Option.map_eq_some_iff.mp there
  rw [path_of_mem ordered found, outward]
  rfl

namespace Chain

theorem there (chain : tree.Chain scope scopes) : tree.frame? scope = some scopes.inner := by
  cases chain with
  | outermost there => exact there
  | inside there => exact there

theorem inTree (chain : tree.Chain scope scopes) : scope < tree.nodes.length := by
  obtain ⟨node, found, _⟩ := Option.map_eq_some_iff.mp chain.there
  exact (List.getElem?_eq_some_iff.mp found).1

theorem kept {other : ScopeTree} (ordered : tree.Ordered) (chain : tree.Chain scope scopes)
    (frames : ∀ outer, outer ≤ scope → other.frame? outer = tree.frame? outer)
    (parents : ∀ outer, outer ≤ scope → other.parent? outer = tree.parent? outer) :
    other.Chain scope scopes := by
  induction chain with
  | outermost there => exact .outermost ((frames 0 (Nat.le_refl 0)).trans there)
  | @inside scope parent frame around there outward further ih =>
    have below : parent < scope := ordered scope parent outward
    refine .inside ((frames scope (Nat.le_refl scope)).trans there)
      ((parents scope (Nat.le_refl scope)).trans outward) (ih ?_ ?_)
    · exact fun outer le => frames outer (Nat.le_trans le (Nat.le_of_lt below))
    · exact fun outer le => parents outer (Nat.le_trans le (Nat.le_of_lt below))

theorem setFrame (ordered : tree.Ordered) (chain : tree.Chain scope scopes) (frame : Frame) :
    (tree.setFrame scope frame).Chain scope { scopes with inner := frame } := by
  have changed : (tree.setFrame scope frame).frame? scope = some frame := by
    rw [frame?_setFrame chain.there, if_pos rfl]
  cases chain with
  | outermost there => exact .outermost changed
  | @inside scope parent inner around there outward further =>
    have below : parent < scope := ordered scope parent outward
    refine .inside changed ((parent?_setFrame tree scope frame scope).trans outward) (further.kept ordered ?_ ?_)
    · intro outer le
      rw [frame?_setFrame there, if_neg (by omega)]
    · exact fun outer _ => parent?_setFrame tree scope frame outer

private theorem frames_eq (ordered : tree.Ordered) (chain : tree.Chain scope scopes) :
    scopes.frames = (tree.path scope).filterMap tree.frame? := by
  induction chain with
  | outermost there => rw [path_outermost there, List.filterMap_cons, there]; rfl
  | inside there outward further ih =>
    rw [path_inside ordered there outward, List.filterMap_cons, there, ← ih]
    rfl

theorem get (ordered : tree.Ordered) (chain : tree.Chain scope scopes) (name : String) :
    tree.get scope name = match scopes.get? name with
      | some value => .ok value
      | none => .error (.undefinedVariable name) := by
  have found : scopes.get? name =
      (tree.path scope).findSome? fun holder => (tree.frame? holder).bind (·.get? name) := by
    rw [Scopes.get?, chain.frames_eq ordered, ← List.head?_filterMap, List.filterMap_filterMap,
      List.head?_filterMap]
  unfold ScopeTree.get
  cases known : scopes.get? name <;> simp only [← found, known]

theorem child (ordered : tree.Ordered) (chain : tree.Chain scope scopes) :
    (tree.child scope).Chain tree.nodes.length scopes.enter := by
  have old {outer : Nat} (le : outer ≤ scope) : (tree.child scope).nodes[outer]? = tree.nodes[outer]? :=
    List.getElem?_append_left (Nat.lt_of_le_of_lt le chain.inTree)
  have made : (tree.child scope).nodes[tree.nodes.length]? = some (.empty, scope) := by
    rw [ScopeTree.child, List.getElem?_append_right (Nat.le_refl _), Nat.sub_self]
    rfl
  have inner : tree.nodes.length ≠ 0 := Nat.ne_of_gt (Nat.zero_lt_of_lt chain.inTree)
  have frame : (tree.child scope).frame? tree.nodes.length = some .empty := by
    rw [frame?, made]
    rfl
  have parent : (tree.child scope).parent? tree.nodes.length = some scope := by
    rw [parent?, if_neg inner, made]
    rfl
  refine .inside frame parent (chain.kept ordered ?_ ?_)
  · intro outer le
    rw [frame?, old le, frame?]
  · intro outer le
    rw [parent?, old le, parent?]

theorem leave (chain : tree.Chain scope scopes) :
    tree.Chain ((tree.parent? scope).getD scope) scopes.leave := by
  cases chain with
  | outermost there => exact .outermost there
  | inside there outward further =>
    rw [outward]
    exact further

theorem define (ordered : tree.Ordered) (chain : tree.Chain scope scopes) (name : String) (value : Value) :
    (tree.define scope name value).Chain scope (scopes.define name value) := by
  rw [ScopeTree.define, chain.there]
  exact chain.setFrame ordered _

structure Assigned (tree : ScopeTree) (scope : Nat) (after : ScopeTree) (scopes : Scopes) : Prop where
  ordered : after.Ordered
  chain : after.Chain scope scopes
  parents : ∀ other, after.parent? other = tree.parent? other
  inward : ∀ other, scope < other → after.frame? other = tree.frame? other

private theorem assigned_setFrame (ordered : tree.Ordered) (chain : tree.Chain scope scopes) (frame : Frame) :
    Assigned tree scope (tree.setFrame scope frame) { scopes with inner := frame } where
  ordered := ordered_setFrame ordered frame
  chain := chain.setFrame ordered frame
  parents := parent?_setFrame tree scope frame
  inward other further := by
    rw [frame?_setFrame chain.there, if_neg (Nat.ne_of_gt further)]

theorem Assigned.inside {after : ScopeTree} {around : Scopes} (ordered : tree.Ordered)
    (there : tree.frame? scope = some frame) (outward : tree.parent? scope = some parent)
    (assigned : Assigned tree parent after around) : Assigned tree scope after ⟨frame, around.frames⟩ where
  ordered := assigned.ordered
  chain := by
    have below : parent < scope := ordered scope parent outward
    exact .inside ((assigned.inward scope below).trans there) ((assigned.parents scope).trans outward)
      assigned.chain
  parents := assigned.parents
  inward other further := assigned.inward other (Nat.lt_trans (ordered scope parent outward) further)

section Assign

variable {name : String} {value : Value}

private theorem assign_here (ordered : tree.Ordered) (chain : tree.Chain scope scopes) {result : Except Fault Frame}
    (found : scopes.inner.assign? name value = some result) :
    InStep (Assigned tree scope) (tree.assign scope name value) (scopes.assign name value) := by
  have inTree : tree.assign scope name value = result.map (tree.setFrame scope) := by
    obtain ⟨node, there, _⟩ := Option.map_eq_some_iff.mp chain.there
    unfold ScopeTree.assign
    rw [path_of_mem ordered there, List.findSome?_cons, chain.there, Option.bind_some, found]
    rfl
  rw [Scopes.assign, found, inTree]
  cases result with
  | error fault => exact .error fault
  | ok frame => exact .ok (assigned_setFrame ordered chain frame)

theorem assign (ordered : tree.Ordered) (chain : tree.Chain scope scopes) :
    InStep (Assigned tree scope) (tree.assign scope name value) (scopes.assign name value) := by
  induction chain with
  | @outermost frame there =>
    cases found : frame.assign? name value with
    | some result => exact assign_here ordered (.outermost there) found
    | none =>
      have nowhere : tree.assign 0 name value = .error (.undefinedVariable name) := by
        unfold ScopeTree.assign
        rw [path_outermost there, List.findSome?_cons, there, Option.bind_some, found]
        rfl
      rw [nowhere, Scopes.assign, Scopes.single, found]
      exact .error (.undefinedVariable name)
  | @inside scope parent frame around there outward further ih =>
    cases found : frame.assign? name value with
    | some result => exact assign_here ordered (.inside there outward further) found
    | none =>
      have inTree : tree.assign scope name value = (tree.assign parent name value).map id := by
        rw [Except.map_id]
        unfold ScopeTree.assign
        rw [path_inside ordered there outward, List.findSome?_cons, there, Option.bind_some, found]
        rfl
      have inChain : Scopes.assign ⟨frame, around.frames⟩ name value =
          (around.assign name value).map fun changed => ⟨frame, changed.frames⟩ := by
        rw [Scopes.assign, found, Scopes.assignAmong_frames]
        cases around.assign name value <;> rfl
      rw [inTree, inChain]
      exact ih.map fun _ _ assigned => assigned.inside ordered there outward

end Assign

end Chain

structure Agrees (place : ScopeTree × Nat) (scopes : Scopes) : Prop where
  ordered : place.1.Ordered
  chain : place.1.Chain place.2 scopes

private theorem agrees_root : Agrees (root, 0) (.single .empty) := ⟨ordered_root, .outermost rfl⟩

theorem Agrees.move {place : ScopeTree × Nat} (agrees : Agrees place scopes) (next : ScopeMove) :
    InStep Agrees (ScopeTree.move place next) (scopes.move next) := by
  obtain ⟨tree, scope⟩ := place
  obtain ⟨ordered, chain⟩ := agrees
  cases next with
  | enter => exact .ok ⟨ordered_child ordered chain.inTree, chain.child ordered⟩
  | leave => exact .ok ⟨ordered, chain.leave⟩
  | define name value => exact .ok ⟨ordered_define ordered, chain.define ordered name value⟩
  | assign name value =>
    have inChain : scopes.move (.assign name value) = (scopes.assign name value).map id := by
      rw [Except.map_id]
      rfl
    rw [inChain, ScopeTree.move]
    exact (chain.assign ordered).map fun _ _ assigned => ⟨assigned.ordered, assigned.chain⟩

theorem Agrees.moves {place : ScopeTree × Nat} (agrees : Agrees place scopes) (moves : List ScopeMove) :
    InStep Agrees (moves.foldlM ScopeTree.move place) (moves.foldlM Scopes.move scopes) := by
  induction moves generalizing place scopes with
  | nil => exact .ok agrees
  | cons next rest ih =>
    rw [List.foldlM_cons, List.foldlM_cons]
    exact (agrees.move next).bind fun _ _ left => ih left

/-- Whatever a program does to its scopes, one move after the other, it is refused in both for the same reason or in
neither, and then finds the same under every name. -/
theorem moves_agree (moves : List ScopeMove) :
    InStep (fun place scopes => ∀ name, place.1.get place.2 name = match scopes.get? name with
        | some value => .ok value
        | none => .error (.undefinedVariable name))
      (moves.foldlM ScopeTree.move (root, 0)) (moves.foldlM Scopes.move (.single .empty)) :=
  (agrees_root.moves moves).mono fun _ _ agrees => agrees.chain.get agrees.ordered

end ScopeTree

end Cfpl
