import Cfpl.Run.Entry

/-! Assigning to the nearest variable of a name. It succeeds where the variable admits the value, and then no
other variable changes. -/

namespace Cfpl.Scopes

variable {name : String} {value current : Value}

private theorem assignAmong_found (value : Value) {frames : List Frame}
    (found : (frames.findSome? fun frame => frame.get? name) = some current) :
    if Frame.admits current value then
      ∃ after, assignAmong name value frames = .ok after ∧ Sets name value frames after
    else assignAmong name value frames = .error (.kindMismatch name current.kind value.kind) := by
  induction frames with
  | nil => cases found
  | cons frame outer ih =>
    unfold assignAmong Frame.assign?
    cases held : frame.get? name with
    | some other =>
      rw [List.findSome?_cons, held] at found
      obtain rfl : other = current := Option.some.inj found
      rw [Option.map_some]
      split
      · exact ⟨_, rfl, .here (by rw [held]; rfl) outer⟩
      · rfl
    | none =>
      rw [List.findSome?_cons, held] at found
      have inner := ih found
      rw [Option.map_none]
      split
      · next admitted =>
        rw [if_pos admitted] at inner
        obtain ⟨after, assigned, stored⟩ := inner
        exact ⟨frame :: after, by rw [assigned]; rfl, .further held stored⟩
      · next refused =>
        rw [if_neg refused] at inner
        rw [inner]
        rfl

section Assign

variable {scopes : Scopes} (found : scopes.get? name = some current)
include found

theorem assign_admitted (admitted : Frame.admits current value) :
    ∃ after, scopes.assign name value = .ok after ∧ Sets name value scopes.frames after.frames := by
  have known := assignAmong_found value found
  rw [if_pos admitted, assignAmong_frames] at known
  obtain ⟨frames, assigned, stored⟩ := known
  cases made : scopes.assign name value with
  | error fault =>
    rw [made] at assigned
    cases assigned
  | ok after =>
    rw [made] at assigned
    cases assigned
    exact ⟨after, rfl, stored⟩

theorem assign_refused (refused : ¬Frame.admits current value) :
    scopes.assign name value = .error (.kindMismatch name current.kind value.kind) := by
  have known := assignAmong_found value found
  rw [if_neg refused, assignAmong_frames] at known
  cases made : scopes.assign name value with
  | error fault =>
    rw [made] at known
    cases known
    rfl
  | ok after =>
    rw [made] at known
    cases known

end Assign

private theorem keepsKind_refl (value : Option Value) : Option.Rel Value.KeepsKind value value := by
  cases value with
  | none => exact .none
  | some value => exact .some (.inl rfl)

private theorem keepsKind_trans {old between new : Option Value} (first : Option.Rel Value.KeepsKind old between)
    (second : Option.Rel Value.KeepsKind between new) : Option.Rel Value.KeepsKind old new := by
  cases first with
  | none => exact second
  | some one =>
    cases second with
    | some other =>
      refine .some ?_
      rcases other with same | ⟨nothing, text⟩
      · exact one.imp same.trans fun filled => ⟨filled.1, same.trans filled.2⟩
      · rcases one with same | ⟨_, other⟩
        · exact .inr ⟨same.symm.trans nothing, text⟩
        · rw [nothing] at other
          cases other

namespace Refilled

variable {names more : List String} {before middle after : List Frame}

theorem refl (frames : List Frame) : Refilled names frames frames where
  count := rfl
  others _ _ _ := rfl
  kinds depth name := keepsKind_refl (heldAt? frames depth name)

private theorem isSome_iff (filled : Refilled names before after) (depth : Nat) (name : String) :
    (heldAt? after depth name).isSome ↔ (heldAt? before depth name).isSome := by
  have kinds := filled.kinds depth name
  generalize heldAt? before depth name = old at kinds
  generalize heldAt? after depth name = new at kinds
  cases kinds <;> simp

theorem trans (first : Refilled names before middle) (second : Refilled more middle after) :
    Refilled (names ++ more) before after where
  count := second.count.trans first.count
  others depth name hidden := by
    have inFirst : name ∈ names → ∃ nearer < depth, (heldAt? before nearer name).isSome :=
      fun member => hidden (List.mem_append_left more member)
    have inSecond : name ∈ more → ∃ nearer < depth, (heldAt? middle nearer name).isSome := by
      intro member
      obtain ⟨nearer, less, known⟩ := hidden (List.mem_append_right names member)
      exact ⟨nearer, less, (first.isSome_iff nearer name).mpr known⟩
    exact (second.others depth name inSecond).trans (first.others depth name inFirst)
  kinds depth name := keepsKind_trans (first.kinds depth name) (second.kinds depth name)

end Refilled

private theorem isSome_get?_iff {scopes : Scopes} :
    (scopes.get? name).isSome ↔ ∃ depth, (heldAt? scopes.frames depth name).isSome := by
  unfold get? heldAt?
  rw [List.findSome?_isSome_iff]
  constructor
  · intro found
    obtain ⟨frame, member, known⟩ := found
    obtain ⟨depth, bound, rfl⟩ := List.getElem_of_mem member
    exact ⟨depth, by rw [List.getElem?_eq_getElem bound]; exact known⟩
  · intro found
    obtain ⟨depth, known⟩ := found
    obtain ⟨value, here⟩ := Option.isSome_iff_exists.mp known
    obtain ⟨frame, listed, held⟩ := Option.bind_eq_some_iff.mp here
    exact ⟨frame, List.mem_of_getElem? listed, Option.isSome_of_eq_some held⟩

theorem Refilled.defined {names : List String} {before after : Scopes}
    (filled : Refilled names before.frames after.frames) (known : (before.get? name).isSome) :
    (after.get? name).isSome := by
  obtain ⟨depth, held⟩ := isSome_get?_iff.mp known
  exact isSome_get?_iff.mpr ⟨depth, (filled.isSome_iff depth name).mpr held⟩

theorem Sets.refilled {frames after : List Frame} (stored : Sets name value frames after)
    (found : (frames.findSome? fun frame => frame.get? name) = some current)
    (kind : current.KeepsKind value) :
    Refilled [name] frames after := by
  induction stored with
  | @here frame known outer =>
    obtain ⟨held, there⟩ := Option.isSome_iff_exists.mp known
    rw [List.findSome?_cons, there] at found
    obtain rfl : held = current := Option.some.inj found
    refine ⟨rfl, fun depth asked hidden => ?_, fun depth asked => ?_⟩
    · cases depth with
      | succ depth => rfl
      | zero =>
        have apart : asked ≠ name := by
          rintro rfl
          obtain ⟨nearer, less, _⟩ := hidden (.head _)
          exact absurd less (Nat.not_lt_zero nearer)
        exact (Frame.get?_define frame name asked value).trans (if_neg apart)
    · cases depth with
      | succ depth => exact keepsKind_refl (heldAt? outer depth asked)
      | zero =>
        show Option.Rel _ (frame.get? asked) ((frame.define name value).get? asked)
        rw [Frame.get?_define]
        split
        · next same =>
          rw [same, there]
          exact .some kind
        · exact keepsKind_refl (frame.get? asked)
  | @further frame outer after unknown stored ih =>
    rw [List.findSome?_cons, unknown] at found
    have inner := ih found
    refine ⟨congrArg Nat.succ inner.count, fun depth asked hidden => ?_, fun depth asked => ?_⟩
    · cases depth with
      | zero => rfl
      | succ depth =>
        refine inner.others depth asked fun member => ?_
        obtain ⟨nearer, less, known⟩ := hidden member
        cases nearer with
        | zero =>
          rw [List.mem_singleton.mp member] at known
          rw [show heldAt? (frame :: outer) 0 name = frame.get? name from rfl, unknown] at known
          cases known
        | succ nearer => exact ⟨nearer, Nat.lt_of_succ_lt_succ less, known⟩
    · cases depth with
      | zero => exact keepsKind_refl (frame.get? asked)
      | succ depth => exact inner.kinds depth asked

end Cfpl.Scopes
