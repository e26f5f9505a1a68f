import Cfpl.Proofs.Reading.Statement
import Cfpl.Proofs.Run.Preservation
import Cfpl.Proofs.Run.Simulation

/-! Everything that programs come to, one after another. Whatever was wrong with the texts, what could be
read of them was read from proper tokens, so the invariant of the single steps holds all along. -/

namespace Cfpl

namespace Program

private theorem ends_tokens (source : String) : Ends (Source.tokens source) :=
  ⟨Source.endToken source, List.mem_append_right _ (List.mem_singleton.mpr rfl), rfl⟩

theorem ofTokens?_tokens (source : String) :
    ∃ program, ofTokens? (Source.tokens source) = some program ∧
      ∀ node ∈ program.statements, node.StatementFrom (· ∈ Source.tokens source) := by
  have feed : (Token.mk .newline "" none 1).symbol = .newline := rfl
  obtain ⟨program, taken, rest, found, moved, _, read⟩ := ofTokens?_reads feed (ends_tokens source)
  refine ⟨program, found, fun node member => (read.made node member).mono fun token held => ?_⟩
  rw [moved.split]
  exact List.mem_append_left _ held

theorem statements_from_tokens (source : String) :
    ∀ node ∈ (ofSource source).statements, node.StatementFrom (· ∈ Source.tokens source) := by
  obtain ⟨program, found, made⟩ := ofTokens?_tokens source
  intro node member
  unfold ofSource at member
  rw [found] at member
  exact made node member

theorem proper_statements (source : String) :
    ∀ node ∈ (ofSource source).statements, node.StatementFrom Token.Proper := fun node member =>
  (statements_from_tokens source node member).mono fun token held => Source.proper_tokens source token held

end Program

namespace Run

variable {config later : Config} {ledger rest : Ledger} {scopes : Scopes}

private theorem Config.proper_ofSource {globals : Frame} (fits : Fits (.single globals) ledger) (input : List String)
    (source : String) : (Config.ofSource globals input source).Proper ledger :=
  ⟨trivial, List.forall_mem_singleton.mpr (Program.proper_statements source), fits⟩

private theorem fits_empty : Fits (.single .empty) .empty :=
  ⟨⟨.nil, List.forall_mem_nil _⟩, rfl,
    List.forall_mem_singleton.mpr fitsLog_empty⟩

private theorem cons_drop_length {α : Type} (first : α) (others : List α) :
    (first :: others).drop others.length = [others.getLast?.getD first] := by
  induction others generalizing first with
  | nil => rfl
  | cons second others ih => rw [List.length_cons, List.drop_succ_cons, ih, List.getLast?_cons]; rfl

private theorem change_globals (fits : Fits scopes ledger) :
    Change scopes ledger (.single scopes.globals) ledger.globals := by
  have same : scopes.outer.length = ledger.outer.length := Nat.succ.inj fits.length
  refine .outward scopes.outer.length ?_ ?_ rfl
  · exact (cons_drop_length scopes.inner scopes.outer).symm
  · rw [same]
    exact (cons_drop_length ledger.inner ledger.outer).symm

theorem Turn.keeps (turn : Turn (config, ledger) (later, rest)) (proper : config.Proper ledger) :
    Change config.state.scopes ledger later.state.scopes rest ∧ later.Proper rest := by
  cases turn with
  | step settings _ stepped =>
    have advances := proper.advances stepped
    exact ⟨advances.change, advances.control, advances.tasks, proper.fits.change advances.change⟩
  | program input source _ _ =>
    have change := change_globals proper.fits
    exact ⟨change, Config.proper_ofSource (proper.fits.change change) input source⟩

theorem Turns.proper (turns : Turns (config, ledger) (later, rest)) (proper : config.Proper ledger) :
    later.Proper rest := by
  suffices known : ∀ after, Turns (config, ledger) after → after.1.Proper after.2 from known _ turns
  intro after turns
  induction turns with
  | refl => exact proper
  | tail _ turn ih => exact (Turn.keeps turn ih).2

theorem Reached.proper (reached : Reached config ledger) : config.Proper ledger := by
  obtain ⟨input, source, turns⟩ := reached
  exact turns.proper (Config.proper_ofSource fits_empty input source)

theorem Turns.kind_eq (turns : Turns (config, ledger) (later, rest)) (proper : config.Proper ledger)
    {name : String} {declaration : Declaration} {value after : Value}
    (before : Binds config.state.scopes ledger name declaration value) (some_ : value.kind ≠ .absent)
    (behind : Binds later.state.scopes rest name declaration after) : after.kind = value.kind := by
  suffices known : ∀ last, Turns (config, ledger) last → ledger.count ≤ last.2.count ∧
      ∀ after, Binds last.1.state.scopes last.2 name declaration after → after.kind = value.kind by
    exact (known _ turns).2 after behind
  intro last turns
  induction turns with
  | refl => exact ⟨Nat.le_refl _, fun after behind => by rw [behind.unique proper.fits.ordered before]⟩
  | @tail middle last turns turn ih =>
    obtain ⟨grown, known⟩ := ih
    have change := (Turn.keeps turn (Turns.proper turns proper)).1
    refine ⟨Nat.le_trans grown change.count_le, fun after behind => ?_⟩
    -- A declaration made on the way has a number of its own, so the binding is still the old one.
    rcases change.binds behind with fresh | ⟨between, bound, kept⟩
    · have older := before.number_lt proper.fits.ordered
      omega
    · have same := known between bound
      rw [kept (same ▸ some_), same]

theorem halted_scopes (settings : Settings) (state : State) (halt : Halt) :
    (Session.halted settings state halt).2.scopes = state.scopes := by
  cases halt with
  | fault token fault =>
    unfold Session.halted State.record
    dsimp only [State.emit]
    split <;> rfl
  | misuse misuse => rfl
  | unfinished => rfl

def Config.EndsIn (settings : Settings) (config : Config) (outcome : Outcome) : Prop :=
  config.control = .done ∧ outcome = .completed ∨
    ∃ halt, config.control = .raised halt ∧ outcome = (Session.halted settings config.state halt).1

/-- Where the run of some statements ends, unless it is cut off by its limit of rounds. -/
theorem conclude_steps {settings : Settings} {statements : List Node} {state : State}
    (ended : (Session.conclude settings statements state).1 ≠ .unfinished) :
    ∃ config, Steps settings ⟨.done, [.rest statements], state⟩ config ∧ config.tasks = [] ∧
      config.state.scopes = (Session.conclude settings statements state).2.scopes ∧
      config.EndsIn settings (Session.conclude settings statements state).1 := by
  have follows : Follows settings (executeAll settings statements) ⟨.done, [.rest statements]⟩
      fun _ => ⟨.done, []⟩ := executeAll_follows statements
  have led := follows [] state
  unfold Session.conclude at ended ⊢
  generalize executeAll settings statements state = result at led ended ⊢
  cases result with
  | ok _ after => exact ⟨_, led, rfl, rfl, .inl ⟨rfl, rfl⟩⟩
  | error halt after =>
    refine ⟨_, led ?_, rfl, (halted_scopes settings after halt).symm, .inr ⟨halt, rfl, rfl⟩⟩
    intro same
    subst same
    exact ended rfl

theorem Turns.ofSteps {settings : Settings} (steps : Steps settings config later) (ledger : Ledger) :
    ∃ rest, Turns (config, ledger) (later, rest) := by
  induction steps with
  | refl => exact ⟨ledger, .refl⟩
  | tail _ stepped ih =>
    obtain ⟨middle, turns⟩ := ih
    exact ⟨_, turns.tail (.step settings middle stepped)⟩

end Run

/-- What programs leave behind that have come to an end, one after another in a new session. -/
inductive Session.Reached : Session → Prop where
  | empty : Reached .empty
  | text (settings : Run.Settings) (input : List String) (source : String) {session : Session} :
    Reached session → (session.runText settings input source).1.outcome ≠ .unfinished →
    Reached (session.runText settings input source).2

namespace Session

variable {session : Session} {settings : Run.Settings} {input : List String} {source : String}

theorem runText_reached {ledger : Run.Ledger}
    (started : Run.Reached (.ofSource session.globals input source) ledger)
    (ended : (session.runText settings input source).1.outcome ≠ .unfinished) :
    ∃ config rest, Run.Reached config rest ∧ config.Ended ∧
      config.state.scopes.globals = (session.runText settings input source).2.globals ∧
      config.EndsIn settings (session.runText settings input source).1.outcome := by
  obtain ⟨config, steps, none, same, ends⟩ := Run.conclude_steps ended
  obtain ⟨rest, onward⟩ := Run.Turns.ofSteps steps ledger
  obtain ⟨firstInput, firstSource, turns⟩ := started
  refine ⟨config, rest, ⟨firstInput, firstSource, turns.trans onward⟩, ⟨none, ?_⟩, ?_, ends⟩
  · rcases ends with ⟨done, _⟩ | ⟨halt, raised, _⟩
    · exact .inl done
    · exact .inr ⟨halt, raised⟩
  · rw [same]
    rfl

theorem Reached.started (reached : Reached session) (input : List String) (source : String) :
    ∃ ledger, Run.Reached (.ofSource session.globals input source) ledger := by
  induction reached generalizing input source with
  | empty => exact ⟨_, input, source, .refl⟩
  | text settings before text _ ended ih =>
    obtain ⟨ledger, started⟩ := ih before text
    obtain ⟨config, rest, ⟨firstInput, firstSource, turns⟩, finished, same, _⟩ := runText_reached started ended
    refine ⟨rest.globals, firstInput, firstSource, ?_⟩
    rw [← same]
    exact turns.tail (.program input source rest finished)

end Session

end Cfpl
