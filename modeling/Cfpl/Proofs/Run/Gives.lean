import Cfpl.Proofs.Value.Proper
import Cfpl.Run.Machine

/-! What the single actions of a program do to its variables. An action changes at most one of them, and
only if it succeeds; if it does not, the program has done something wrong. -/

namespace Cfpl.Run

variable {α β : Type}

def Gives (run : Run α) (scopes : Scopes) (given : α → Scopes → Prop) : Prop :=
  ∀ state : State, state.scopes = scopes → match run state with
    | .ok a after => given a after.scopes
    | .error halt after => halt.IsFault ∧ after.scopes = scopes

def Quiet (run : Run α) (a : α) : Prop :=
  ∀ state : State, ∃ after, run state = .ok a after ∧ after.scopes = state.scopes

theorem run_bind (run : Run α) (next : α → Run β) (state : State) :
    (run >>= next) state = match run state with
      | .ok a after => next a after
      | .error halt after => .error halt after := by
  change EStateM.bind run next state = _
  unfold EStateM.bind
  cases run state <;> rfl

def Sure (run : Run α) (scopes : Scopes) (given : α → Scopes → Prop) : Prop :=
  ∀ state : State, state.scopes = scopes → ∃ a after, run state = .ok a after ∧ given a after.scopes

theorem record_scopes (settings : Settings) (entry : TraceEntry) (state : State) :
    (state.record settings entry).scopes = state.scopes := by
  unfold State.record
  split <;> rfl

theorem record_pending (settings : Settings) (entry : TraceEntry) (state : State) :
    (state.record settings entry).pending = state.pending := by
  unfold State.record
  split <;> rfl

theorem record_events (settings : Settings) (entry : TraceEntry) (state : State) :
    (state.record settings entry).events = state.events := by
  unfold State.record
  split <;> rfl

theorem quiet_record (settings : Settings) (entry : TraceEntry) : Quiet (record settings entry) () :=
  fun state => ⟨_, rfl, record_scopes settings entry state⟩

theorem quiet_emit (event : Event) : Quiet (emit event) () := fun _ => ⟨_, rfl, rfl⟩

private theorem quiet_readLine (state : State) :
    ∃ line after, readLine state = .ok line after ∧ after.scopes = state.scopes := ⟨_, _, rfl, rfl⟩

namespace Gives

variable {scopes : Scopes} {given wanted : α → Scopes → Prop}

theorem mono {run : Run α} (gives : Gives run scopes given)
    (weaker : ∀ a after, given a after → wanted a after) : Gives run scopes wanted := by
  intro state same
  have known := gives state same
  generalize run state = result at known ⊢
  cases result with
  | ok a after => exact weaker a after.scopes known
  | error halt after => exact known

theorem pure {a : α} (held : given a scopes) : Gives (Pure.pure a) scopes given := by
  intro state same
  subst same
  exact held

theorem bind {run : Run α} {next : α → Run β} {holds : α → Prop} {wanted : β → Scopes → Prop}
    (first : Gives run scopes fun a after => after = scopes ∧ holds a)
    (second : ∀ a, holds a → Gives (next a) scopes wanted) : Gives (run >>= next) scopes wanted := by
  intro state same
  have known := first state same
  rw [run_bind]
  generalize run state = result at known ⊢
  cases result with
  | ok a after => exact second a known.2 after known.1
  | error halt after => exact known

theorem quietly {run : Run α} {next : α → Run β} {a : α} {wanted : β → Scopes → Prop}
    (quiet : Quiet run a) (second : Gives (next a) scopes wanted) : Gives (run >>= next) scopes wanted := by
  intro state same
  subst same
  obtain ⟨after, ran, kept⟩ := quiet state
  rw [run_bind, ran]
  exact second after kept

theorem before {run : Run α} {next : α → Run β} (finish : α → β) {wanted : β → Scopes → Prop}
    (first : Gives run scopes fun a after => wanted (finish a) after)
    (quiet : ∀ a, Quiet (next a) (finish a)) : Gives (run >>= next) scopes wanted := by
  intro state same
  have known := first state same
  rw [run_bind]
  generalize run state = result at known ⊢
  cases result with
  | ok a after =>
    obtain ⟨last, ran, kept⟩ := quiet a after
    dsimp only
    rw [ran]
    dsimp only
    rwa [kept]
  | error halt after => exact known

end Gives

theorem Quiet.pure (a : α) : Quiet (Pure.pure a) a := fun _ => ⟨_, rfl, rfl⟩

theorem Quiet.bind {run : Run α} {next : α → Run β} {a : α} {b : β} (first : Quiet run a)
    (second : Quiet (next a) b) : Quiet (run >>= next) b := by
  intro state
  obtain ⟨middle, ran, kept⟩ := first state
  obtain ⟨last, ended, keptAgain⟩ := second middle
  refine ⟨last, ?_, keptAgain.trans kept⟩
  rw [run_bind, ran]
  exact ended

namespace Sure

variable {scopes : Scopes} {given : α → Scopes → Prop}

theorem pure {a : α} (held : given a scopes) : Sure (Pure.pure a) scopes given := by
  intro state same
  subst same
  exact ⟨a, state, rfl, held⟩

theorem bind {run : Run α} {next : α → Run β} {wanted : β → Scopes → Prop}
    (first : Sure run scopes given)
    (second : ∀ a middle, given a middle → Sure (next a) middle wanted) :
    Sure (run >>= next) scopes wanted := by
  intro state same
  obtain ⟨a, middle, ran, held⟩ := first state same
  obtain ⟨b, last, ended, reached⟩ := second a middle.scopes held middle rfl
  refine ⟨b, last, ?_, reached⟩
  rw [run_bind, ran]
  exact ended

theorem quietly {run : Run α} {next : α → Run β} {a : α} {wanted : β → Scopes → Prop}
    (quiet : Quiet run a) (second : Sure (next a) scopes wanted) : Sure (run >>= next) scopes wanted := by
  intro state same
  subst same
  obtain ⟨after, ran, kept⟩ := quiet state
  rw [run_bind, ran]
  exact second after kept

theorem ofQuiet {run : Run α} {a : α} (quiet : Quiet run a) (held : given a scopes) :
    Sure run scopes given := by
  intro state same
  subst same
  obtain ⟨after, ran, kept⟩ := quiet state
  exact ⟨a, after, ran, by rwa [kept]⟩

end Sure

section Actions

variable {scopes : Scopes} {settings : Settings}

theorem gives_lookup (name : Token) : Gives (lookup name) scopes fun value after =>
    after = scopes ∧ scopes.get? name.lexeme = some value := by
  intro state same
  subst same
  unfold lookup
  split
  · next found =>
    split at found
    · next stored =>
      cases found
      exact ⟨rfl, stored⟩
    · cases found
  · next found =>
    split at found
    · cases found
    · cases found
      exact ⟨trivial, rfl⟩

private theorem gives_tryAssign (name : Token) (value : Value) :
    Gives (tryAssign name value) scopes fun fault after => match fault with
      | none => scopes.assign name.lexeme value = .ok after
      | some _ => after = scopes := by
  intro state same
  subst same
  unfold tryAssign
  cases assigned : state.scopes.assign name.lexeme value with
  | ok after => rfl
  | error fault => rfl

private theorem gives_assign (name : Token) (value : Value) :
    Gives (assign name value) scopes fun _ after => scopes.assign name.lexeme value = .ok after := by
  intro state same
  have known := gives_tryAssign name value state same
  unfold assign
  rw [run_bind]
  generalize tryAssign name value state = result at known ⊢
  cases result with
  | error halt after => exact known
  | ok fault after =>
    cases fault with
    | none => exact known
    | some fault => exact ⟨trivial, known⟩

theorem gives_assignTraced (name : Token) (value : Value) :
    Gives (assignTraced settings name value) scopes fun result after =>
      result = value ∧ scopes.assign name.lexeme value = .ok after := by
  refine Gives.before (fun _ => value) ((gives_assign name value).mono fun _ _ assigned => ⟨rfl, assigned⟩)
    fun _ => ?_
  exact (quiet_record settings _).bind (.pure value)

theorem gives_ofExcept {result : Except Halt Value} (proper : Operation.Proper result) :
    Gives (ofExcept result) scopes fun value after => after = scopes ∧ value.Proper := by
  cases result with
  | ok value => exact .pure ⟨rfl, proper⟩
  | error halt => exact fun _ same => ⟨proper, same⟩

theorem gives_readFields {names : List Token} (some_ : names ≠ []) :
    Gives (readFields names) scopes fun _ after => after = scopes := by
  intro state same
  obtain ⟨line, after, read, kept⟩ := quiet_readLine state
  unfold readFields
  rw [run_bind, read]
  dsimp only
  rw [← kept] at same
  revert same
  refine (?_ : Gives _ scopes fun _ after => after = scopes) after
  split
  · exact .pure rfl
  · cases names with
    | nil => exact absurd rfl some_
    | cons first others => exact .quietly (quiet_emit _) (.pure rfl)

theorem gives_inputField (name : Token) (field : String) :
    Gives (inputField settings name field) scopes fun _ after => after = scopes ∨
      ∃ value, value.Proper ∧ scopes.assign name.lexeme value = .ok after := by
  apply Gives.bind ((gives_lookup name).mono fun value after found => ⟨found.1, trivial⟩)
  intro current _
  split
  · next value read =>
    have proper := (Field.proper_read read).1
    exact Gives.before (fun _ => ()) ((gives_assign name value).mono fun _ after assigned =>
      .inr ⟨value, proper, assigned⟩) fun _ => quiet_record settings _
  · refine .quietly (quiet_emit _) ?_
    refine Gives.before (fun _ => ()) ((gives_tryAssign name (Field.guess field)).mono ?_) fun fault => ?_
    · intro found after assigned
      cases found with
      | none =>
        exact .inr ⟨_, Field.proper_guess field, assigned⟩
      | some _ =>
        exact .inl assigned
    · cases fault with
      | none => exact .pure ()
      | some fault => exact quiet_emit _

end Actions

end Cfpl.Run
