import Cfpl.Proofs.Run.Likeness

/-! A scope without variables makes no difference. Names mean the same with and without it, and as long as
nothing is declared in it, it stays as it is. -/

namespace Cfpl

/-- The second chain has an empty scope more, behind as many scopes as the depth says. -/
inductive Scopes.Padded : Nat → Scopes → Scopes → Prop where
  | here (scopes : Scopes) : Padded 0 scopes scopes.enter
  | behind (frame : Frame) {depth : Nat} {first second : Scopes} :
    Padded depth first second → Padded (depth + 1) ⟨frame, first.frames⟩ ⟨frame, second.frames⟩

namespace Scopes

variable {depth : Nat} {first second : Scopes}

theorem Padded.get? (padded : Padded depth first second) (name : String) :
    first.get? name = second.get? name := by
  induction padded with
  | here scopes => rfl
  | behind frame _ ih =>
    have step (scopes : Scopes) :
        (Scopes.mk frame scopes.frames).get? name = (frame.get? name).or (scopes.get? name) := by
      rw [Scopes.get?, frames, List.findSome?_cons]
      cases frame.get? name <;> rfl
    rw [step, step, ih]

theorem Padded.assign (padded : Padded depth first second) (name : String) (value : Value) :
    Run.Assigned (Padded depth) (first.assign name value) (second.assign name value) := by
  induction padded with
  | here scopes =>
    have passed : scopes.enter.assign name value =
        (assignAmong name value scopes.frames).map fun outer => ⟨.empty, outer⟩ := rfl
    rw [passed, assignAmong_frames]
    cases scopes.assign name value with
    | ok after => exact .ok (.here after)
    | error fault => exact .error fault
  | @behind frame depth first second padded ih =>
    unfold Scopes.assign
    cases frame.assign? name value with
    | some result =>
      cases result with
      | ok later => exact .ok (.behind later padded)
      | error fault => exact .error fault
    | none =>
      dsimp only
      rw [assignAmong_frames, assignAmong_frames]
      generalize first.assign name value = result at ih ⊢
      generalize second.assign name value = otherResult at ih ⊢
      cases ih with
      | ok padded => exact .ok (.behind frame padded)
      | error fault => exact .error fault

theorem Padded.define (opened : 0 < depth) (padded : Padded depth first second) (name : String)
    (value : Value) : Padded depth (first.define name value) (second.define name value) := by
  cases padded with
  | here scopes => exact absurd opened (Nat.lt_irrefl 0)
  | behind frame padded => exact .behind (frame.define name value) padded

theorem Padded.leave (padded : Padded (depth + 1) first second) : Padded depth first.leave second.leave := by
  cases padded with
  | behind frame padded => exact padded

end Scopes

namespace Run.Likeness

def plain : Likeness where
  lines := 0
  opened _ := True
  opened_succ _ := trivial
  scopes _ first second := first = second
  console pending events others since := pending = others ∧ events = since
  get? same name := by rw [same]
  assigned {depth first second} same name value := by
    subst same
    cases first.assign name value with
    | ok after => exact .ok rfl
    | error fault => exact .error fault
  defined _ same name value := by rw [same]
  entered same := by rw [same]
  left same := by rw [same]
  shown same text := ⟨same.1, by rw [same.2]⟩
  reported same diagnostic := ⟨same.1, by rw [same.2, Diagnostic.shift_zero]⟩
  read same := ⟨by rw [same.1], by rw [same.1], by rw [same.1, same.2]⟩

def padded : Likeness where
  lines := 0
  opened depth := 0 < depth
  opened_succ depth := Nat.succ_pos depth
  scopes := Scopes.Padded
  console := plain.console
  get? padded := padded.get?
  assigned padded := padded.assign
  defined opened padded := Scopes.Padded.define opened padded
  entered padded := .behind .empty padded
  left padded := padded.leave
  shown := plain.shown
  reported := plain.reported
  read := plain.read

variable {α : Type} {depth : Nat} {run other third : Run α}

theorem Keeps.inPadding (keeps : padded.Keeps 0 run other) : plain.Keeps depth run (Run.inScope other) := by
  intro first second alike
  have padding : padded.States 0 first second.enterScope :=
    ⟨by rw [show first.scopes = second.scopes from alike.scopes]; exact .here _, alike.console⟩
  have inside := keeps first second.enterScope padding
  unfold Run.inScope
  generalize run first = result at inside ⊢
  generalize other second.enterScope = otherResult at inside ⊢
  have left {before after : State} (alike : padded.States 0 before after) :
      plain.States depth before after.leaveScope := by
    refine ⟨?_, alike.console⟩
    have padding : Scopes.Padded 0 before.scopes after.scopes := alike.scopes
    show before.scopes = after.scopes.leave
    generalize before.scopes = scopes at padding ⊢
    generalize after.scopes = entered at padding ⊢
    cases padding
    rfl
  cases inside with
  | ok a alike => exact .ok a (left alike)
  | error halt alike => exact .error halt (left alike)

theorem Keeps.symm (keeps : plain.Keeps depth run other) : plain.Keeps depth other run := by
  have back {before after : State} (alike : plain.States depth before after) :
      plain.States depth after before :=
    ⟨(show before.scopes = after.scopes from alike.scopes).symm, alike.console.1.symm,
      alike.console.2.symm⟩
  intro first second alike
  have ended := keeps second first (back alike)
  generalize run second = result at ended ⊢
  generalize other first = otherResult at ended ⊢
  cases ended with
  | ok a alike => exact .ok a (back alike)
  | error halt alike =>
    have turned : plain.Ends depth (.error halt _ : EStateM.Result Halt State α)
        (.error (halt.shift 0) _) := .error halt (back alike)
    rw [Halt.shift_zero] at turned
    show plain.Ends depth (.error (halt.shift 0) _) (.error halt _)
    rwa [Halt.shift_zero]

theorem Keeps.trans (keeps : plain.Keeps depth run other) (onward : padded.Keeps depth other third) :
    padded.Keeps depth run third := by
  intro first second alike
  have begun := keeps first first ⟨rfl, rfl, rfl⟩
  have ended := onward first second alike
  generalize run first = result at begun ⊢
  generalize other first = between at begun ended
  generalize third second = otherResult at ended ⊢
  have joined {before middle after : State} (same : plain.States depth before middle)
      (alike : padded.States depth middle after) : padded.States depth before after := by
    have scopes : before.scopes = middle.scopes := same.scopes
    refine ⟨?_, same.console.1.trans alike.console.1, same.console.2.trans alike.console.2⟩
    rw [scopes]
    exact alike.scopes
  cases begun with
  | ok a same =>
    cases ended with
    | ok a alike => exact .ok a (joined same alike)
  | error halt same =>
    cases ended with
    | error _ alike =>
      rw [show (halt.shift plain.lines).shift padded.lines = halt.shift padded.lines from
        Halt.shift_zero _]
      exact .error halt (joined same alike)

end Run.Likeness

end Cfpl
