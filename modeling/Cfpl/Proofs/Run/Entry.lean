import Cfpl.Proofs.Run.Gives
import Cfpl.Proofs.Scope.Nearest
import Cfpl.Proofs.Value.Guess

/-! Input lines read into variables. One line is read, and the program goes on whatever stands on it. Each field
either becomes the value of its variable or leaves it alone; no other variable changes, and no kind but that
of a variable that held nothing. -/

namespace Cfpl.Run

/-- The run comes to its end and has read nothing more, but may have reported something and changed
variables. -/
def Settles (run : Run Unit) (state : State) (held : Scopes → List Diagnostic → Prop) : Prop :=
  ∃ after reports, run state = .ok () after ∧ after.pending = state.pending ∧
    after.events.toList = state.events.toList ++ reports.map .report ∧ held after.scopes reports

namespace Settles

variable {state : State} {held : Scopes → List Diagnostic → Prop}

theorem pure (kept : held state.scopes []) : Settles (Pure.pure ()) state held :=
  ⟨state, [], rfl, rfl, (List.append_nil _).symm, kept⟩

theorem bind {run next : Run Unit} {wanted : Scopes → List Diagnostic → Prop}
    (first : Settles run state held)
    (second : ∀ middle reports, held middle.scopes reports →
      Settles next middle fun after others => wanted after (reports ++ others)) :
    Settles (run >>= fun _ => next) state wanted := by
  obtain ⟨middle, reports, ran, unread, told, kept⟩ := first
  obtain ⟨after, others, ended, unreadToo, toldMore, keptToo⟩ := second middle reports kept
  refine ⟨after, reports ++ others, ?_, unreadToo.trans unread, ?_, keptToo⟩
  · rw [run_bind, ran]
    exact ended
  · rw [toldMore, told, List.map_append, List.append_assoc]

theorem record (settings : Settings) (entry : TraceEntry) (kept : held state.scopes []) :
    Settles (Run.record settings entry) state held := by
  refine ⟨state.record settings entry, [], rfl, record_pending settings entry state, ?_, ?_⟩
  · rw [record_events]
    exact (List.append_nil _).symm
  · rw [record_scopes]
    exact kept

theorem report {diagnostic : Diagnostic} (kept : held state.scopes [diagnostic]) :
    Settles (Run.report diagnostic) state held :=
  ⟨_, [diagnostic], rfl, rfl, Array.toList_push, kept⟩

theorem quietly {α : Type} {run : Run α} {next : α → Run Unit} {a : α} {middle : State}
    (ran : run state = .ok a middle) (unread : middle.pending = state.pending)
    (silent : middle.events = state.events) (behind : Settles (next a) middle held) :
    Settles (run >>= next) state held := by
  obtain ⟨after, reports, ended, unreadToo, told, kept⟩ := behind
  refine ⟨after, reports, ?_, unreadToo.trans unread, ?_, kept⟩
  · rw [run_bind, ran]
    exact ended
  · rw [told, silent]

theorem lookup {name : Token} {next : Value → Run Unit} {current : Value}
    (found : state.scopes.get? name.lexeme = some current) (behind : Settles (next current) state held) :
    Settles (Run.lookup name >>= next) state held := by
  have looked : Run.lookup name state = .ok current state := by
    unfold Run.lookup
    rw [found]
  exact .quietly looked rfl rfl behind

theorem tryAssign {name : Token} {value : Value} {next : Option Fault → Run Unit} {scopes : Scopes}
    (assigned : state.scopes.assign name.lexeme value = .ok scopes)
    (behind : Settles (next none) { state with scopes := scopes } held) :
    Settles (Run.tryAssign name value >>= next) state held := by
  have tried : Run.tryAssign name value state = .ok none { state with scopes := scopes } := by
    unfold Run.tryAssign
    rw [assigned]
  exact .quietly tried rfl rfl behind

private theorem tryAssign_refused {name : Token} {value : Value} {next : Option Fault → Run Unit} {fault : Fault}
    (refused : state.scopes.assign name.lexeme value = .error fault)
    (behind : Settles (next (some fault)) state held) :
    Settles (Run.tryAssign name value >>= next) state held := by
  have tried : Run.tryAssign name value state = .ok (some fault) state := by
    unfold Run.tryAssign
    rw [refused]
  exact .quietly tried rfl rfl behind

end Settles

variable {settings : Settings} {state : State}

theorem inputField_settles {name : Token} (field : String) {current : Value}
    (found : state.scopes.get? name.lexeme = some current) :
    Settles (inputField settings name field) state (Entered name field state.scopes) := by
  refine .lookup found ?_
  cases unfit : Field.read current.kind field with
  | ok value =>
    have admitted : Frame.admits current value := by
      simpa [Frame.admits, or_comm] using (Field.proper_read unfit).2
    obtain ⟨after, assigned, stored⟩ := Scopes.assign_admitted found admitted
    have kept : Entered name field state.scopes after [] := .read found unfit stored
    have assigns : Settles (assign name value) state fun scopes reports => scopes = after ∧ reports = [] :=
      .tryAssign assigned (.pure ⟨rfl, rfl⟩)
    refine assigns.bind ?_
    rintro middle reports ⟨rfl, rfl⟩
    exact .record settings _ kept
  | error error =>
    have told : Settles (report (unreadable name current.kind)) state fun scopes reports =>
        scopes = state.scopes ∧ reports = [unreadable name current.kind] := .report ⟨rfl, rfl⟩
    refine told.bind ?_
    rintro middle reports ⟨same, rfl⟩
    -- What a rejected field looks like is of another kind than its variable, truth values apart.
    by_cases mentioned : current.kind = .boolean ∧
        (Field.mentions "true" field ∨ Field.mentions "false" field)
    · have guessed := Field.guess_of_mentions mentioned.2
      have kind : (Field.guess field).kind = current.kind := by
        rw [guessed, mentioned.1]
        rfl
      have admitted : Frame.admits current (Field.guess field) := by simp [Frame.admits, kind]
      obtain ⟨after, assigned, stored⟩ := Scopes.assign_admitted found admitted
      rw [guessed] at stored
      rw [← same] at assigned
      exact .tryAssign assigned (.pure (.guessed found unfit mentioned.1 mentioned.2 stored))
    · have refused : ¬Frame.admits current (Field.guess field) := by
        have apart := Field.kind_guess_ne unfit mentioned
        have something := Field.kind_ne_absent unfit
        simp [Frame.admits, apart.symm, something]
      have failed := Scopes.assign_refused found refused
      rw [← same] at failed
      refine .tryAssign_refused failed (.report ?_)
      rw [same]
      exact .refused found unfit mentioned

theorem Entered.refilled {name : Token} {field : String} {before after : Scopes} {reports : List Diagnostic}
    (entered : Entered name field before after reports) :
    Scopes.Refilled [name.lexeme] before.frames after.frames := by
  cases entered with
  | read found fits stored =>
    refine stored.refilled found ?_
    rcases (Field.proper_read fits).2 with same | nothing
    · exact .inl same.symm
    · rw [nothing] at fits
      cases fits
      exact .inr ⟨nothing, rfl⟩
  | guessed found unfit truth mentioned stored => exact stored.refilled found (.inl truth.symm)
  | refused found unfit other => exact .refl before.frames

theorem EnteredAll.refilled {names : List Token} {fields : List String} {before after : Scopes}
    {reports : List Diagnostic} (entered : EnteredAll names fields before after reports) :
    Scopes.Refilled (names.map Token.lexeme) before.frames after.frames := by
  induction entered with
  | done scopes => exact .refl scopes.frames
  | more first rest ih => exact first.refilled.trans ih

theorem inputFields_settles {names : List Token} {fields : List String} (paired : fields.length = names.length)
    (defined : ∀ name ∈ names, (state.scopes.get? name.lexeme).isSome) :
    Settles (inputFields settings names fields) state (EnteredAll names fields state.scopes) := by
  induction names generalizing fields state with
  | nil =>
    obtain rfl := List.eq_nil_of_length_eq_zero paired
    exact .pure (.done state.scopes)
  | cons name names ih =>
    obtain _ | ⟨field, fields⟩ := fields
    · cases paired
    obtain ⟨known, others⟩ := List.forall_mem_cons.mp defined
    obtain ⟨current, found⟩ := Option.isSome_iff_exists.mp known
    refine (inputField_settles field found).bind fun middle reports entered => ?_
    have still : ∀ name ∈ names, (middle.scopes.get? name.lexeme).isSome :=
      fun name member => entered.refilled.defined (others name member)
    obtain ⟨after, more, ran, unread, told, rest⟩ := ih (Nat.succ.inj paired) still
    exact ⟨after, more, ran, unread, told, .more entered rest⟩

private theorem readLine_eq (state : State) : readLine state = .ok state.pending.head? state.lineRead := rfl

theorem readFields_paired {names : List Token} (paired : state.nextFields.length = names.length) :
    readFields names state = .ok (some state.nextFields) state.lineRead := by
  unfold readFields
  rw [run_bind, readLine_eq]
  unfold State.nextFields at paired ⊢
  dsimp only
  rw [if_pos paired]
  rfl

private theorem readFields_uneven {names : List Token} (nonempty : names ≠ [])
    (uneven : state.nextFields.length ≠ names.length) :
    readFields names state = .ok none (state.lineRead.emit
      (.report (missingValues (names.head nonempty) names.length state.nextFields.length))) := by
  obtain _ | ⟨first, others⟩ := names
  · exact absurd rfl nonempty
  · unfold readFields
    rw [run_bind, readLine_eq]
    unfold State.nextFields at uneven ⊢
    dsimp only
    rw [if_neg uneven]
    rfl

private theorem toList_emit_append (event : Event) (state : State) (events : List Event) :
    (state.emit event).events.toList ++ events = state.events.toList ++ event :: events := by
  unfold State.emit
  rw [Array.toList_push, List.append_assoc]
  rfl

private theorem input_entered (settings : Settings) {names : List Token} (nonempty : names ≠ [])
    (defined : ∀ name ∈ names, (state.scopes.get? name.lexeme).isSome) :
    ∃ after reports, input settings names state = .ok () after ∧
      LineEntered names nonempty state after reports := by
  unfold input
  by_cases paired : state.nextFields.length = names.length
  · obtain ⟨after, reports, ran, unread, told, entered⟩ :=
      @inputFields_settles settings state.lineRead names state.nextFields paired defined
    refine ⟨after, reports, ?_, unread, ?_, absurd paired, fun _ => entered⟩
    · rw [run_bind, readFields_paired paired]
      exact ran
    · rw [told]
      exact toList_emit_append ..
  · let missing := missingValues (names.head nonempty) names.length state.nextFields.length
    refine ⟨state.lineRead.emit (.report missing), [missing], ?_, rfl, ?_, fun _ => ⟨rfl, rfl⟩,
      fun same => absurd same paired⟩
    · rw [run_bind, readFields_uneven nonempty paired]
      rfl
    · exact Array.toList_push.trans (toList_emit_append ..)

theorem LineEntered.refilled {names : List Token} {nonempty : names ≠ []} {before after : State}
    {reports : List Diagnostic} (entered : LineEntered names nonempty before after reports) :
    Scopes.Refilled (names.map Token.lexeme) before.scopes.frames after.scopes.frames := by
  by_cases paired : before.nextFields.length = names.length
  · exact (entered.paired paired).refilled
  · rw [(entered.uneven paired).1]
    exact .refl _

private theorem LineEntered.of_record {names : List Token} {nonempty : names ≠ []} {before after : State}
    {reports : List Diagnostic} {entry : TraceEntry}
    (entered : LineEntered names nonempty (before.record settings entry) after reports) :
    LineEntered names nonempty before after reports := by
  unfold State.record at entered
  split at entered
  · exact ⟨entered.unread, entered.told, entered.uneven, entered.paired⟩
  · exact entered

/-- An input line comes to its end whenever its variables are defined. It takes one line, enters each field of
it where it belongs, and touches nothing else. -/
theorem input_of_defined (settings : Settings) {state : State} {names : List Token} (nonempty : names ≠ [])
    (defined : ∀ name ∈ names, (state.scopes.get? name.lexeme).isSome) :
    ∃ after reports, execute settings (.input names) state = .ok () after ∧
      LineEntered names nonempty state after reports ∧
      Scopes.Refilled (names.map Token.lexeme) state.scopes.frames after.scopes.frames := by
  have known : ∀ name ∈ names, (((state.record settings
      (.execute (Node.input names).label)).scopes).get? name.lexeme).isSome := by
    rw [record_scopes]
    exact defined
  obtain ⟨after, reports, ran, entered⟩ := input_entered settings nonempty known
  refine ⟨after, reports, ?_, entered.of_record, entered.of_record.refilled⟩
  unfold execute
  rw [run_bind]
  exact ran

def entryName (name : String) : Token := ⟨.identifier, name, none, 2⟩

def entryNames : List Token := ["t", "n", "t", "n"].map entryName

def beforeEntry : State :=
  ⟨⟨Frame.empty.define "n" .none, [(Frame.empty.define "t" (.boolean false)).define "n" (.integer 7)]⟩,
    ["unTrue, 1,5,2", "end"], #[], #[]⟩

theorem input_of_beforeEntry :
    ∃ after reports, execute ⟨0, 10⟩ (.input entryNames) beforeEntry = .ok () after ∧
      after.pending = ["end"] ∧
      EnteredAll entryNames ["unTrue", " 1", "5", "2"] beforeEntry.scopes after.scopes reports ∧
      after.events.toList = .input (some "unTrue, 1,5,2") ::
        [unreadable (entryName "t") .boolean, unreadable (entryName "t") .boolean,
          unwanted (entryName "t") .boolean .character].map .report ∧
      after.scopes.frames.map (fun frame => (frame.get? "n").map Value.kind) =
        [some .string, some .integer] := by
  obtain ⟨after, reports, ran, entered, _⟩ :=
    @input_of_defined ⟨0, 10⟩ beforeEntry entryNames (by decide) (by decide +kernel)
  have computed : (match execute ⟨0, 10⟩ (.input entryNames) beforeEntry with
      | .ok _ ended => some (ended.events.toList,
          ended.scopes.frames.map fun frame => (frame.get? "n").map Value.kind)
      | .error _ _ => none) =
      some (.input (some "unTrue, 1,5,2") ::
        [unreadable (entryName "t") .boolean, unreadable (entryName "t") .boolean,
          unwanted (entryName "t") .boolean .character].map .report,
        [some .string, some .integer]) := by decide +kernel
  rw [ran] at computed
  obtain ⟨told, kinds⟩ := Prod.mk.inj (Option.some.inj computed)
  exact ⟨after, reports, ran, entered.unread, entered.paired (by decide), told, kinds⟩

end Cfpl.Run
