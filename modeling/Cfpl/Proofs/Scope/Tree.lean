import Cfpl.Scope.Tree

/-! Looking up and assigning in trees of scopes. Both find the nearest scope that has a variable of the name;
what assigning changes there is seen from the scopes that it is the nearest for, and nowhere else. -/

namespace Cfpl.ScopeTree

variable {tree : ScopeTree} {name : String} {value current : Value} {scope holder : Nat}

def Ordered (tree : ScopeTree) : Prop := ∀ scope parent, tree.parent? scope = some parent → parent < scope

section SetFrame

variable {frame old : Frame}

private theorem length_setFrame (tree : ScopeTree) (holder : Nat) (frame : Frame) :
    (tree.setFrame holder frame).nodes.length = tree.nodes.length := by
  rw [setFrame, List.length_modify]

theorem parent?_setFrame (tree : ScopeTree) (holder : Nat) (frame : Frame) (scope : Nat) :
    (tree.setFrame holder frame).parent? scope = tree.parent? scope := by
  unfold parent? setFrame
  rw [List.getElem?_modify]
  split
  · rfl
  · cases tree.nodes[scope]? with
    | none => rfl
    | some node =>
      rw [Option.map_eq_map, Option.map_some, Option.map_some]
      split <;> rfl

theorem frame?_setFrame (found : tree.frame? holder = some old) (scope : Nat) :
    (tree.setFrame holder frame).frame? scope = if scope = holder then some frame else tree.frame? scope := by
  unfold frame? at found ⊢
  unfold setFrame
  rw [List.getElem?_modify, Option.map_eq_map, Option.map_map]
  by_cases same : scope = holder
  · subst same
    obtain ⟨node, there, _⟩ := Option.map_eq_some_iff.mp found
    rw [if_pos rfl, there, Option.map_some, Function.comp_apply, if_pos rfl]
  · rw [if_neg same]
    congr 1
    funext node
    rw [Function.comp_apply, if_neg (Ne.symm same)]

private theorem held?_setFrame (found : tree.frame? holder = some old) (scope : Nat) (asked : String) :
    (tree.setFrame holder (old.define name value)).held? scope asked =
      if scope = holder ∧ asked = name then some value else tree.held? scope asked := by
  unfold held?
  rw [frame?_setFrame found]
  by_cases same : scope = holder
  · subst same
    rw [if_pos rfl, Option.bind_some, Frame.get?_define, found]
    simp
  · rw [if_neg same, if_neg fun both => same both.1]

end SetFrame

section Ordered

theorem ordered_root : root.Ordered := by
  intro scope parent around
  unfold parent? root at around
  split at around
  · cases around
  · next inner =>
    obtain ⟨least, rfl⟩ := Nat.exists_eq_succ_of_ne_zero inner
    cases around

theorem ordered_setFrame (ordered : tree.Ordered) (frame : Frame) : (tree.setFrame holder frame).Ordered := by
  intro scope parent around
  rw [parent?_setFrame] at around
  exact ordered scope parent around

theorem ordered_child (ordered : tree.Ordered) (inTree : scope < tree.nodes.length) :
    (tree.child scope).Ordered := by
  intro made parent around
  unfold parent? child at around
  split at around
  · cases around
  · next inner =>
    obtain ⟨node, found, rfl⟩ := Option.map_eq_some_iff.mp around
    rw [List.getElem?_append] at found
    split at found
    · exact ordered made node.2 (by rw [parent?, if_neg inner, found]; rfl)
    · next fresh =>
      rw [List.getElem?_singleton] at found
      obtain ⟨_, same⟩ := Option.ite_none_right_eq_some.mp found
      cases same
      exact Nat.lt_of_lt_of_le inTree (Nat.le_of_not_lt fresh)

theorem ordered_define (ordered : tree.Ordered) : (tree.define scope name value).Ordered := by
  unfold define
  split
  · exact ordered_setFrame ordered _
  · exact ordered

private theorem ordered_assign {changed : ScopeTree} (ordered : tree.Ordered)
    (assigned : tree.assign scope name value = .ok changed) : changed.Ordered := by
  unfold assign at assigned
  dsimp only at assigned
  split at assigned
  · next holder result _ =>
    cases result with
    | error fault => cases assigned
    | ok frame =>
      cases assigned
      exact ordered_setFrame ordered frame
  · cases assigned

private theorem after_assigned {changed : ScopeTree} (assigned : tree.assign scope name value = .ok changed) :
    tree.after (.assign scope name value) = changed := by
  simp only [after, assigned]

private theorem after_refused {fault : Fault} (refused : tree.assign scope name value = .error fault) :
    tree.after (.assign scope name value) = tree := by
  simp only [after, refused]

theorem Reached.ordered (reached : tree.Reached) : tree.Ordered := by
  induction reached with
  | root => exact ordered_root
  | @call tree _ call inTree ih =>
    cases call with
    | child scope => exact ordered_child ih inTree
    | define scope name value => exact ordered_define ih
    | assign scope name value =>
      cases made : tree.assign scope name value with
      | ok changed =>
        rw [after_assigned made]
        exact ordered_assign ih made
      | error fault => rwa [after_refused made]

end Ordered

private theorem parent?_eq_none (absent : tree.nodes[scope]? = none) : tree.parent? scope = none := by
  rw [parent?, absent]
  split <;> rfl

private theorem held?_eq_none (absent : tree.nodes[scope]? = none) : tree.held? scope name = none := by
  rw [held?, frame?, absent]
  rfl

section Path

theorem path_of_mem (ordered : tree.Ordered) {node : Frame × Nat} (there : tree.nodes[scope]? = some node) :
    tree.path scope = scope :: ((tree.parent? scope).map tree.path).getD [] := by
  obtain ⟨frame, parent⟩ := node
  rw [path, there]
  dsimp only
  by_cases outermost : scope = 0
  · subst outermost
    rw [if_neg (Nat.not_lt_zero parent), parent?, if_pos rfl]
    rfl
  · have around : tree.parent? scope = some parent := by
      rw [parent?, if_neg outermost, there]
      rfl
    rw [if_pos (ordered scope parent around), around]
    rfl

variable {α : Type} {find : Nat → Option α} (finds : ∀ scope, find scope = none ↔ tree.held? scope name = none)
  (ordered : tree.Ordered)
include finds ordered

private theorem findSome?_nearest (nearest : tree.Nearest name scope holder) :
    (tree.path scope).findSome? find = find holder := by
  induction nearest with
  | @here scope has =>
    obtain ⟨found, known⟩ : ∃ found, find scope = some found := by
      refine Option.ne_none_iff_exists'.mp fun none => ?_
      rw [(finds scope).mp none] at has
      cases has
    cases there : tree.nodes[scope]? with
    | none =>
      rw [held?_eq_none there] at has
      cases has
    | some node => rw [path_of_mem ordered there, List.findSome?_cons, known]
  | @outward scope parent holder lacks around further ih =>
    cases there : tree.nodes[scope]? with
    | none =>
      rw [parent?_eq_none there] at around
      cases around
    | some node =>
      rw [path_of_mem ordered there, List.findSome?_cons, (finds scope).mpr lacks, around]
      exact ih

private theorem findSome?_nowhere (nowhere : ∀ holder, ¬tree.Nearest name scope holder) :
    (tree.path scope).findSome? find = none := by
  induction scope using Nat.strongRecOn with
  | ind scope ih =>
    cases there : tree.nodes[scope]? with
    | none =>
      rw [path, there]
      rfl
    | some node =>
      have lacks : tree.held? scope name = none :=
        Option.not_isSome_iff_eq_none.mp fun has => nowhere scope (.here has)
      rw [path_of_mem ordered there, List.findSome?_cons, (finds scope).mpr lacks]
      cases around : tree.parent? scope with
      | none => rfl
      | some parent =>
        exact ih parent (ordered scope parent around) fun holder further =>
          nowhere holder (.outward lacks around further)

end Path

theorem Nearest.has (nearest : tree.Nearest name scope holder) : (tree.held? holder name).isSome := by
  induction nearest with
  | here has => exact has
  | outward _ _ _ ih => exact ih

theorem Nearest.unique {other : Nat} (nearest : tree.Nearest name scope holder)
    (again : tree.Nearest name scope other) : other = holder := by
  induction nearest with
  | here has =>
    cases again with
    | here => rfl
    | outward lacks =>
      rw [lacks] at has
      cases has
  | outward lacks around _ ih =>
    cases again with
    | here has =>
      rw [lacks] at has
      cases has
    | outward _ aroundAgain further =>
      rw [around] at aroundAgain
      cases aroundAgain
      exact ih further

section Get

private theorem get_of_nearest (ordered : tree.Ordered) (nearest : tree.Nearest name scope holder)
    (held : tree.held? holder name = some current) : tree.get scope name = .ok current := by
  have found := findSome?_nearest (fun _ => Iff.rfl) ordered nearest
  change (tree.path scope).findSome? (fun holder => (tree.frame? holder).bind (·.get? name)) =
    tree.held? holder name at found
  unfold get
  rw [found, held]

private theorem get_of_nowhere (ordered : tree.Ordered) (nowhere : ∀ holder, ¬tree.Nearest name scope holder) :
    tree.get scope name = .error (.undefinedVariable name) := by
  have found := findSome?_nowhere (fun _ => Iff.rfl) ordered nowhere
  change (tree.path scope).findSome? (fun holder => (tree.frame? holder).bind (·.get? name)) = none at found
  unfold get
  rw [found]

end Get

section Assign

/-- What assigning looks for in a scope. -/
def attempt? (tree : ScopeTree) (name : String) (value : Value) (holder : Nat) :
    Option (Nat × Except Fault Frame) :=
  ((tree.frame? holder).bind (·.assign? name value)).map fun result => (holder, result)

private theorem attempt?_eq_none (value : Value) (scope : Nat) :
    tree.attempt? name value scope = none ↔ tree.held? scope name = none := by
  unfold attempt? held? Frame.assign?
  rw [Option.map_eq_none_iff]
  cases tree.frame? scope <;> simp

private theorem attempt?_of_held (value : Value) (held : tree.held? holder name = some current) :
    ∃ frame, tree.frame? holder = some frame ∧ tree.attempt? name value holder =
      some (holder, if Frame.admits current value then .ok (frame.define name value)
        else .error (.kindMismatch name current.kind value.kind)) := by
  obtain ⟨frame, there, found⟩ := Option.bind_eq_some_iff.mp held
  refine ⟨frame, there, ?_⟩
  rw [attempt?, there, Option.bind_some, Frame.assign?, found, Option.map_some, Option.map_some]

variable (ordered : tree.Ordered)
include ordered

private theorem assign_of_nowhere (nowhere : ∀ holder, ¬tree.Nearest name scope holder) :
    tree.assign scope name value = .error (.undefinedVariable name) := by
  have found := findSome?_nowhere (attempt?_eq_none value) ordered nowhere
  unfold attempt? at found
  unfold assign
  dsimp only
  rw [found]

private theorem assign_of_nearest (value : Value) (nearest : tree.Nearest name scope holder)
    (held : tree.held? holder name = some current) :
    ∃ frame, tree.frame? holder = some frame ∧ tree.assign scope name value =
      if Frame.admits current value then .ok (tree.setFrame holder (frame.define name value))
      else .error (.kindMismatch name current.kind value.kind) := by
  obtain ⟨frame, there, attempted⟩ := attempt?_of_held value held
  have found := findSome?_nearest (attempt?_eq_none value) ordered nearest
  rw [attempted] at found
  refine ⟨frame, there, ?_⟩
  unfold attempt? at found
  unfold assign
  dsimp only
  rw [found]
  dsimp only
  split <;> rfl

end Assign

private theorem not_admits {current value : Value} :
    ¬Frame.admits current value ↔ current.kind ≠ .absent ∧ current.kind ≠ value.kind := by
  simp [Frame.admits]

private theorem refusal_or_admitted (tree : ScopeTree) (scope : Nat) (name : String) (value : Value) :
    (∃ fault, tree.Refusal scope name value fault) ∨
      ∃ holder current, tree.Nearest name scope holder ∧ tree.held? holder name = some current ∧
        Frame.admits current value := by
  by_cases nowhere : ∀ holder, ¬tree.Nearest name scope holder
  · exact .inl ⟨_, .undefined nowhere⟩
  · obtain ⟨holder, nearest⟩ := Classical.not_forall_not.mp nowhere
    obtain ⟨current, held⟩ := Option.isSome_iff_exists.mp nearest.has
    by_cases admitted : Frame.admits current value
    · exact .inr ⟨holder, current, nearest, held, admitted⟩
    · obtain ⟨some_, other⟩ := not_admits.mp admitted
      exact .inl ⟨_, .kind nearest held some_ other⟩

private theorem assign_of_refusal {fault : Fault} (ordered : tree.Ordered)
    (refusal : tree.Refusal scope name value fault) : tree.assign scope name value = .error fault := by
  cases refusal with
  | undefined nowhere => exact assign_of_nowhere ordered nowhere
  | kind nearest held some_ other =>
    obtain ⟨frame, _, assigned⟩ := assign_of_nearest ordered value nearest held
    rw [assigned, if_neg (not_admits.mpr ⟨some_, other⟩)]

section Rebound

variable {old : Frame} (found : tree.frame? holder = some old) (has : (tree.held? holder name).isSome)
include found has

private theorem nearest_setFrame {asked : String} {seen : Nat} :
    (tree.setFrame holder (old.define name value)).Nearest asked scope seen ↔ tree.Nearest asked scope seen := by
  have same (scope : Nat) : ((tree.setFrame holder (old.define name value)).held? scope asked).isSome =
      (tree.held? scope asked).isSome := by
    rw [held?_setFrame found]
    split
    · next both =>
      obtain ⟨rfl, rfl⟩ := both
      rw [has]
      rfl
    · rfl
  have lacking (scope : Nat) : (tree.setFrame holder (old.define name value)).held? scope asked = none ↔
      tree.held? scope asked = none := by
    rw [← Option.not_isSome_iff_eq_none, ← Option.not_isSome_iff_eq_none, same]
  constructor
  · intro nearest
    induction nearest with
    | here has => exact .here (by rwa [same] at has)
    | @outward scope _ _ lacks around _ ih =>
      rw [parent?_setFrame] at around
      exact .outward ((lacking scope).mp lacks) around ih
  · intro nearest
    induction nearest with
    | here has => exact .here (by rwa [same])
    | @outward scope _ _ lacks around _ ih =>
      rw [← parent?_setFrame tree holder (old.define name value)] at around
      exact .outward ((lacking scope).mpr lacks) around ih

private theorem get_setFrame (ordered : tree.Ordered) {asked : String}
    (elsewhere : ¬(asked = name ∧ tree.Nearest name scope holder)) :
    (tree.setFrame holder (old.define name value)).get scope asked = tree.get scope asked := by
  have orderedAfter : (tree.setFrame holder (old.define name value)).Ordered := ordered_setFrame ordered _
  by_cases nowhere : ∀ seen, ¬tree.Nearest asked scope seen
  · rw [get_of_nowhere ordered nowhere, get_of_nowhere orderedAfter]
    exact fun seen nearest => nowhere seen ((nearest_setFrame found has).mp nearest)
  · obtain ⟨seen, nearest⟩ := Classical.not_forall_not.mp nowhere
    obtain ⟨current, held⟩ := Option.isSome_iff_exists.mp nearest.has
    rw [get_of_nearest ordered nearest held]
    refine get_of_nearest orderedAfter ((nearest_setFrame found has).mpr nearest) ?_
    rw [held?_setFrame found, if_neg, held]
    rintro ⟨rfl, rfl⟩
    exact elsewhere ⟨rfl, nearest⟩

private theorem rebound_setFrame (ordered : tree.Ordered) :
    tree.Rebound (tree.setFrame holder (old.define name value)) holder name value where
  count := length_setFrame tree holder _
  parents := parent?_setFrame tree holder _
  held := held?_setFrame found
  seen scope nearest := by
    refine get_of_nearest (ordered_setFrame ordered _) ((nearest_setFrame found has).mpr nearest) ?_
    rw [held?_setFrame found, if_pos ⟨rfl, rfl⟩]
  unseen scope far := get_setFrame found has ordered fun both => far both.2
  others scope asked other := get_setFrame found has ordered fun both => other both.1

end Rebound

/-- In every tree of scopes, assigning is refused where no scope from the given one outward has the name, or
where the nearest one that has it holds something of another kind, and a refusal leaves the tree as it is. Else
the variable of the nearest one, and nothing but that, takes the value. -/
theorem assign_in_reached (reached : tree.Reached) (scope : Nat) (name : String) (value : Value) :
    (∀ fault, tree.assign scope name value = .error fault ↔ tree.Refusal scope name value fault) ∧
      ((∃ fault, tree.Refusal scope name value fault) → tree.after (.assign scope name value) = tree) ∧
      ((¬∃ fault, tree.Refusal scope name value fault) →
        ∃ changed holder, tree.assign scope name value = .ok changed ∧ tree.Nearest name scope holder ∧
          tree.Rebound changed holder name value) := by
  have ordered := reached.ordered
  have admits {holder : Nat} {current : Value} (nearest : tree.Nearest name scope holder)
      (held : tree.held? holder name = some current) (admitted : Frame.admits current value) :
      ∃ changed, tree.assign scope name value = .ok changed ∧ tree.Rebound changed holder name value := by
    obtain ⟨frame, there, assigned⟩ := assign_of_nearest ordered value nearest held
    rw [if_pos admitted] at assigned
    exact ⟨_, assigned, rebound_setFrame there nearest.has ordered⟩
  refine ⟨fun fault => ⟨fun failed => ?_, assign_of_refusal ordered⟩, ?_, fun allowed => ?_⟩
  · rcases refusal_or_admitted tree scope name value with ⟨other, refusal⟩ | ⟨_, _, nearest, held, admitted⟩
    · rw [assign_of_refusal ordered refusal] at failed
      cases failed
      exact refusal
    · obtain ⟨changed, assigned, _⟩ := admits nearest held admitted
      rw [assigned] at failed
      cases failed
  · rintro ⟨fault, refusal⟩
    exact after_refused (assign_of_refusal ordered refusal)
  · obtain ⟨holder, current, nearest, held, admitted⟩ :=
      (refusal_or_admitted tree scope name value).resolve_left allowed
    obtain ⟨changed, assigned, rebound⟩ := admits nearest held admitted
    exact ⟨changed, holder, assigned, nearest, rebound⟩

def shadowed : ScopeTree :=
  [Call.define 0 "x" (.integer 1), .child 0, .define 1 "x" .none, .child 1, .child 0].foldl after root

theorem assign_in_shadowed :
    shadowed.Reached ∧
      shadowed.assign 3 "x" (.string "a") = .error (.kindMismatch "x" .integer .string) ∧
      shadowed.after (.assign 3 "x" (.string "a")) = shadowed ∧
      ∃ changed, shadowed.assign 2 "x" (.string "a") = .ok changed ∧
        changed.get 2 "x" = .ok (.string "a") ∧ changed.get 3 "x" = .ok (.integer 1) := by
  have reached : shadowed.Reached :=
    ((((Reached.root.call (.define 0 "x" (.integer 1)) (by decide)).call (.child 0) (by decide)).call
      (.define 1 "x" .none) (by decide)).call (.child 1) (by decide)).call (.child 0) (by decide)
  have outer : shadowed.Nearest "x" 3 0 := .outward rfl rfl (.here rfl)
  have inner : shadowed.Nearest "x" 2 1 := .outward rfl rfl (.here rfl)
  have held : shadowed.held? 0 "x" = some (.integer 1) := rfl
  have refusal : shadowed.Refusal 3 "x" (.string "a") (.kindMismatch "x" .integer .string) :=
    .kind outer held (by decide) (by decide)
  obtain ⟨refused, kept, _⟩ := assign_in_reached reached 3 "x" (.string "a")
  obtain ⟨_, _, taken⟩ := assign_in_reached reached 2 "x" (.string "a")
  have allowed : ¬∃ fault, shadowed.Refusal 2 "x" (.string "a") fault := by
    rintro ⟨fault, nowhere | ⟨nearest, held, some_, _⟩⟩
    · exact nowhere 1 inner
    · obtain rfl := inner.unique nearest
      obtain rfl := Option.some.inj held
      exact some_ rfl
  obtain ⟨changed, holder, assigned, nearest, rebound⟩ := taken allowed
  obtain rfl := inner.unique nearest
  have far : ¬shadowed.Nearest "x" 3 1 := fun other => absurd (outer.unique other) (by decide)
  refine ⟨reached, (refused _).mpr refusal, kept ⟨_, refusal⟩, changed, assigned, rebound.seen 2 inner, ?_⟩
  rw [rebound.unseen 3 far]
  exact get_of_nearest reached.ordered outer held

end Cfpl.ScopeTree
