import Cfpl.Proofs.Value.Proper
import Cfpl.Run.Ledger
import Mathlib.Data.List.Flatten

/-! The variables of a run against the ledger of their declarations. What a single step can do to them is
said once; that every variable holds what its declaration allows, and that it keeps its kind, follows for
each of these changes and so for every run. -/

namespace Cfpl.Run

/-- What a variable may hold that was declared last in this way. -/
structure Declaration.Allows (declaration : Declaration) (value : Value) : Prop where
  typed : declaration.dataType.isDataType
  kind : declaration.dataType ≠ .stringType →
    Kind.ofDataType? declaration.dataType = some value.kind
  text : declaration.dataType = .stringType → declaration.given = some .string → value.kind = .string
  absent : value.kind = .absent →
    declaration.dataType = .stringType ∧ declaration.given ≠ some .string

/-- The variables of a scope are declared in its log and hold proper values that are allowed there. -/
def FitsLog (frame : Frame) (log : Log) : Prop :=
  ∀ name value, frame.get? name = some value → value.Proper ∧
    ∃ declaration, log.lookup name = some declaration ∧ declaration.Allows value

structure Ledger.Ordered (ledger : Ledger) : Prop where
  descends : ledger.logs.flatten.Pairwise fun later earlier => earlier.2.number < later.2.number
  below : ∀ entry ∈ ledger.logs.flatten, entry.2.number < ledger.count

structure Fits (scopes : Scopes) (ledger : Ledger) : Prop where
  ordered : ledger.Ordered
  length : scopes.frames.length = ledger.logs.length
  fits : ∀ pair ∈ scopes.frames.zip ledger.logs, FitsLog pair.1 pair.2

/-- Some scope in effect has the variable, declared there last in this way and with this value. -/
def Binds (scopes : Scopes) (ledger : Ledger) (name : String) (declaration : Declaration)
    (value : Value) : Prop :=
  ∃ pair ∈ scopes.frames.zip ledger.logs, pair.2.lookup name = some declaration ∧
    pair.1.get? name = some value

/-- What a single step can do to the variables: scopes are left, one is entered, a variable is declared in
the innermost one, or assigned to where it is found. -/
inductive Change (scopes : Scopes) (ledger : Ledger) : Scopes → Ledger → Prop where
  | outward (depth : Nat) {left : Scopes} {rest : Ledger} :
    left.frames = scopes.frames.drop depth → rest.logs = ledger.logs.drop depth →
    rest.count = ledger.count → Change scopes ledger left rest
  | enter : Change scopes ledger scopes.enter ledger.enter
  | declare {name : String} {value : Value} {dataType : Symbol} {given : Option Kind} :
    value.Proper → (Declaration.mk ledger.count dataType given).Allows value →
    Change scopes ledger (scopes.define name value) (ledger.declare name dataType given)
  | assign {name : String} {value : Value} {after : Scopes} :
    value.Proper → scopes.assign name value = .ok after → Change scopes ledger after ledger

theorem Change.same (scopes : Scopes) (ledger : Ledger) : Change scopes ledger scopes ledger :=
  .outward 0 rfl rfl rfl

section Lists

variable {name : String} {value : Value} {frames after : List Frame} {logs : List Log}

private theorem get?_of_assign? {frame later : Frame} (assigned : frame.assign? name value = some (.ok later))
    {asked : String} {found : Value} (stored : later.get? asked = some found) :
    ∃ before, frame.get? asked = some before ∧
      (found = before ∨ found = value ∧ (before.kind = .absent ∨ before.kind = value.kind)) := by
  unfold Frame.assign? at assigned
  obtain ⟨current, there, admitted⟩ := Option.map_eq_some_iff.mp assigned
  split at admitted
  · next admits =>
    cases admitted
    rw [Frame.get?_define] at stored
    split at stored
    · next same =>
      subst same
      cases stored
      refine ⟨current, there, .inr ⟨rfl, ?_⟩⟩
      simpa [Frame.admits] using admits
    · exact ⟨found, stored, .inl rfl⟩
  · cases admitted

theorem assignAmong_cases {frame : Frame}
    (assigned : Scopes.assignAmong name value (frame :: frames) = .ok after) :
    (∃ later, frame.assign? name value = some (.ok later) ∧ after = later :: frames) ∨
      ∃ others, Scopes.assignAmong name value frames = .ok others ∧ after = frame :: others := by
  unfold Scopes.assignAmong at assigned
  split at assigned
  · next result found =>
    cases result with
    | error fault => cases assigned
    | ok later =>
      cases assigned
      exact .inl ⟨later, found, rfl⟩
  · cases inner : Scopes.assignAmong name value frames with
    | error fault =>
      rw [inner] at assigned
      cases assigned
    | ok others =>
      rw [inner] at assigned
      cases assigned
      exact .inr ⟨others, rfl, rfl⟩

private theorem mem_zip_of_assignAmong (assigned : Scopes.assignAmong name value frames = .ok after)
    {pair : Frame × Log} (member : pair ∈ after.zip logs) :
    ∃ frame, (frame, pair.2) ∈ frames.zip logs ∧
      (pair.1 = frame ∨ frame.assign? name value = some (.ok pair.1)) := by
  induction frames generalizing after logs with
  | nil => cases assigned
  | cons frame frames ih =>
    cases logs with
    | nil => simp at member
    | cons log logs =>
      rcases assignAmong_cases assigned with ⟨later, found, rfl⟩ | ⟨others, inner, rfl⟩
      · rcases List.mem_cons.mp member with rfl | rest
        · exact ⟨frame, .head _, .inr found⟩
        · exact ⟨pair.1, .tail _ rest, .inl rfl⟩
      · rcases List.mem_cons.mp member with rfl | rest
        · exact ⟨frame, .head _, .inl rfl⟩
        · obtain ⟨other, listed, known⟩ := ih inner rest
          exact ⟨other, .tail _ listed, known⟩

theorem length_of_assignAmong (assigned : Scopes.assignAmong name value frames = .ok after) :
    after.length = frames.length := by
  induction frames generalizing after with
  | nil => cases assigned
  | cons frame frames ih =>
    rcases assignAmong_cases assigned with ⟨later, _, rfl⟩ | ⟨others, inner, rfl⟩
    · rfl
    · exact congrArg Nat.succ (ih inner)

theorem assignAmong_frames (scopes : Scopes) {left : Scopes} (assigned : scopes.assign name value = .ok left) :
    Scopes.assignAmong name value scopes.frames = .ok left.frames := by
  rw [Scopes.assignAmong_frames, assigned]
  rfl

end Lists

inductive Origin (scopes : Scopes) (ledger : Ledger) : Frame × Log → Prop where
  | kept {pair : Frame × Log} : pair ∈ scopes.frames.zip ledger.logs → Origin scopes ledger pair
  | entered : Origin scopes ledger (.empty, [])
  | declared {frame : Frame} {log : Log} {name : String} {value : Value} {dataType : Symbol}
      {given : Option Kind} :
    (frame, log) ∈ scopes.frames.zip ledger.logs → value.Proper →
    (Declaration.mk ledger.count dataType given).Allows value →
    Origin scopes ledger (frame.define name value, (name, ⟨ledger.count, dataType, given⟩) :: log)
  | assigned {frame after : Frame} {log : Log} {name : String} {value : Value} :
    (frame, log) ∈ scopes.frames.zip ledger.logs → value.Proper →
    frame.assign? name value = some (.ok after) → Origin scopes ledger (after, log)

section Changes

variable {scopes left : Scopes} {ledger rest : Ledger}

private theorem Change.origin (change : Change scopes ledger left rest) {pair : Frame × Log}
    (member : pair ∈ left.frames.zip rest.logs) : Origin scopes ledger pair := by
  cases change with
  | outward depth frames logs =>
    rw [frames, logs, List.zip, ← List.drop_zipWith] at member
    exact .kept (List.mem_of_mem_drop member)
  | enter =>
    rcases List.mem_cons.mp member with rfl | outer
    · exact .entered
    · exact .kept outer
  | declare proper allowed =>
    rcases List.mem_cons.mp member with rfl | outer
    · exact .declared (.head _) proper allowed
    · exact .kept (.tail _ outer)
  | assign proper assigned =>
    obtain ⟨frame, listed, same | known⟩ := mem_zip_of_assignAmong (assignAmong_frames scopes assigned) member
    · exact .kept (by rwa [← same] at listed)
    · exact .assigned listed proper known

theorem Change.length (change : Change scopes ledger left rest)
    (same : scopes.frames.length = ledger.logs.length) : left.frames.length = rest.logs.length := by
  cases change with
  | outward depth frames logs => rw [frames, logs, List.length_drop, List.length_drop, same]
  | enter => exact congrArg Nat.succ same
  | declare => exact same
  | assign _ assigned => exact (length_of_assignAmong (assignAmong_frames scopes assigned)).trans same

theorem Change.count_le (change : Change scopes ledger left rest) : ledger.count ≤ rest.count := by
  cases change with
  | outward _ _ _ count => exact Nat.le_of_eq count.symm
  | enter | assign => exact Nat.le_refl _
  | declare => exact Nat.le_succ _

theorem Change.ordered (change : Change scopes ledger left rest) (ordered : ledger.Ordered) :
    rest.Ordered := by
  cases change with
  | outward depth _ logs count =>
    have fewer : rest.logs.flatten.Sublist ledger.logs.flatten := by
      rw [logs]
      exact (List.drop_sublist depth ledger.logs).flatten
    refine ⟨ordered.descends.sublist fewer, fun entry member => ?_⟩
    rw [count]
    exact ordered.below entry (fewer.subset member)
  | enter => exact ⟨ordered.descends, ordered.below⟩
  | declare =>
    refine ⟨.cons ordered.below ordered.descends, fun entry member => ?_⟩
    rcases List.mem_cons.mp member with rfl | earlier
    · exact Nat.lt_succ_self _
    · exact Nat.lt_succ_of_lt (ordered.below entry earlier)
  | assign => exact ordered

theorem fitsLog_empty : FitsLog .empty [] := fun _ _ stored => nomatch stored

theorem FitsLog.define {frame : Frame} {log : Log} (fits : FitsLog frame log) (name : String)
    {value : Value} {declaration : Declaration} (proper : value.Proper)
    (allowed : declaration.Allows value) :
    FitsLog (frame.define name value) ((name, declaration) :: log) := by
  intro asked found stored
  rw [Frame.get?_define] at stored
  split at stored
  · next same =>
    subst same
    cases stored
    exact ⟨proper, declaration, by simp, allowed⟩
  · next apart =>
    obtain ⟨properFound, earlier, listed, allowedFound⟩ := fits asked found stored
    exact ⟨properFound, earlier, by simp [List.lookup_cons, beq_eq_false_iff_ne.mpr apart, listed],
      allowedFound⟩

private theorem Declaration.Allows.ofKind {declaration : Declaration} {value other : Value}
    (allowed : declaration.Allows value) (same : value.kind = other.kind) : declaration.Allows other :=
  ⟨allowed.typed, fun plain => (allowed.kind plain).trans (by rw [same]),
    fun isText given => same ▸ allowed.text isText given, fun none => allowed.absent (same ▸ none)⟩

private theorem Declaration.Allows.ofAbsent {declaration : Declaration} {value : Value}
    (allowed : declaration.Allows value) (none : value.kind = .absent) (other : Value) :
    declaration.Allows other := by
  obtain ⟨isText, bare⟩ := allowed.absent none
  exact ⟨allowed.typed, fun plain => absurd isText plain, fun _ given => absurd given bare,
    fun _ => ⟨isText, bare⟩⟩

theorem FitsLog.assign {frame after : Frame} {log : Log} (fits : FitsLog frame log) {name : String}
    {value : Value} (proper : value.Proper) (assigned : frame.assign? name value = some (.ok after)) :
    FitsLog after log := by
  intro asked found stored
  obtain ⟨before, there, same | ⟨rfl, admitted⟩⟩ := get?_of_assign? assigned stored
  · rw [same]
    exact fits asked before there
  · obtain ⟨_, declaration, listed, allowed⟩ := fits asked before there
    refine ⟨proper, declaration, listed, ?_⟩
    rcases admitted with none | same
    · exact allowed.ofAbsent none _
    · exact allowed.ofKind same

theorem Fits.change (fits : Fits scopes ledger) (change : Change scopes ledger left rest) :
    Fits left rest := by
  refine ⟨change.ordered fits.ordered, change.length fits.length, fun pair member => ?_⟩
  cases change.origin member with
  | kept listed => exact fits.fits _ listed
  | entered => exact fitsLog_empty
  | declared listed proper allowed => exact (fits.fits _ listed).define _ proper allowed
  | assigned listed proper assigned => exact (fits.fits _ listed).assign proper assigned

private theorem eq_of_lookup {frames : List Frame} {logs : List Log} {name : String} {declaration : Declaration}
    (descends : logs.flatten.Pairwise fun later earlier => earlier.2.number < later.2.number)
    {pair other : Frame × Log} (member : pair ∈ frames.zip logs) (memberOther : other ∈ frames.zip logs)
    (listed : pair.2.lookup name = some declaration) (listedOther : other.2.lookup name = some declaration) :
    pair = other := by
  have found {log : Log} (listed : log.lookup name = some declaration) : (name, declaration) ∈ log := by
    obtain ⟨before, after, split, _⟩ := List.lookup_eq_some_iff.mp listed
    rw [split]
    simp
  induction frames generalizing logs with
  | nil => cases member
  | cons frame frames ih =>
    cases logs with
    | nil => cases member
    | cons log logs =>
      rw [List.flatten_cons, List.pairwise_append] at descends
      obtain ⟨_, outer, across⟩ := descends
      -- In two logs the declaration would be older than itself.
      have apart {one two : Frame × Log} (inner : one = (frame, log)) (later : two ∈ frames.zip logs)
          (here : one.2.lookup name = some declaration) (there : two.2.lookup name = some declaration) :
          False := by
        subst inner
        have behind : (name, declaration) ∈ logs.flatten :=
          List.mem_flatten.mpr ⟨two.2, (List.of_mem_zip later).2, found there⟩
        exact Nat.lt_irrefl _ (across _ (found here) _ behind)
      rcases List.mem_cons.mp member with here | later
      · rcases List.mem_cons.mp memberOther with same | otherLater
        · rw [here, same]
        · exact (apart here otherLater listed listedOther).elim
      · rcases List.mem_cons.mp memberOther with same | otherLater
        · exact (apart same later listedOther listed).elim
        · exact ih outer later otherLater

theorem Change.binds (change : Change scopes ledger left rest) {name : String}
    {declaration : Declaration} {value : Value} (binds : Binds left rest name declaration value) :
    declaration.number = ledger.count ∨ ∃ before, Binds scopes ledger name declaration before ∧
      (before.kind ≠ .absent → value.kind = before.kind) := by
  obtain ⟨pair, member, listed, stored⟩ := binds
  cases change.origin member with
  | kept there => exact .inr ⟨value, ⟨_, there, listed, stored⟩, fun _ => rfl⟩
  | entered => cases listed
  | @declared frame log made given dataType kind there _ _ =>
    dsimp only at listed stored
    rw [List.lookup_cons] at listed
    rw [Frame.get?_define] at stored
    split at listed
    · cases listed
      exact .inl rfl
    · next apart =>
      rw [if_neg (by simpa using apart)] at stored
      exact .inr ⟨value, ⟨_, there, listed, stored⟩, fun _ => rfl⟩
  | assigned there _ assigned =>
    obtain ⟨before, held, same | ⟨rfl, admitted⟩⟩ := get?_of_assign? assigned stored
    · exact .inr ⟨before, ⟨_, there, listed, held⟩, fun _ => by rw [same]⟩
    · refine .inr ⟨before, ⟨_, there, listed, held⟩, fun some_ => ?_⟩
      rcases admitted with none | same
      · exact absurd none some_
      · exact same.symm

theorem Binds.unique (ordered : ledger.Ordered) {name : String} {declaration : Declaration}
    {value other : Value} (binds : Binds scopes ledger name declaration value)
    (bindsOther : Binds scopes ledger name declaration other) : value = other := by
  obtain ⟨pair, member, listed, stored⟩ := binds
  obtain ⟨pairOther, memberOther, listedOther, storedOther⟩ := bindsOther
  obtain rfl := eq_of_lookup ordered.descends member memberOther listed listedOther
  exact Option.some.inj (stored.symm.trans storedOther)

theorem Binds.number_lt (ordered : ledger.Ordered) {name : String} {declaration : Declaration}
    {value : Value} (binds : Binds scopes ledger name declaration value) :
    declaration.number < ledger.count := by
  obtain ⟨pair, member, listed, _⟩ := binds
  obtain ⟨before, after, split, _⟩ := List.lookup_eq_some_iff.mp listed
  refine ordered.below (name, declaration) (List.mem_flatten.mpr ⟨pair.2, (List.of_mem_zip member).2, ?_⟩)
  rw [split]
  simp

theorem Fits.log (fits : Fits scopes ledger) {depth : Nat} {frame : Frame}
    (found : scopes.frames[depth]? = some frame) :
    ∃ log, ledger.logs[depth]? = some log ∧ FitsLog frame log := by
  obtain ⟨less, same⟩ := List.getElem?_eq_some_iff.mp found
  have lessLogs : depth < ledger.logs.length := fits.length ▸ less
  have lessBoth : depth < (scopes.frames.zip ledger.logs).length := by
    rw [List.length_zip]
    omega
  refine ⟨ledger.logs[depth], List.getElem?_eq_getElem lessLogs, ?_⟩
  have member := List.getElem_mem lessBoth
  rw [List.getElem_zip, same] at member
  exact fits.fits _ member

theorem Fits.proper_get? (fits : Fits scopes ledger) {name : String} {value : Value}
    (found : scopes.get? name = some value) : value.Proper := by
  obtain ⟨frame, member, stored⟩ := List.exists_of_findSome?_eq_some found
  obtain ⟨depth, held⟩ := List.mem_iff_getElem?.mp member
  obtain ⟨log, _, fitsLog⟩ := fits.log held
  exact (fitsLog name value stored).1

end Changes

end Cfpl.Run
