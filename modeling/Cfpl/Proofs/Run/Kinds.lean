import Cfpl.Proofs.Run.Reached

/-! The variables of programs keep to their declarations. This holds at every place that programs come to,
one after another in a session, also in the middle of a statement and after a fault. -/

namespace Cfpl.Run

/-- Each variable in effect holds a proper value that its latest declaration in its scope allows. -/
def Sound (scopes : Scopes) (ledger : Ledger) : Prop :=
  ∀ (depth : Nat) (frame : Frame) (name : String) (value : Value),
    scopes.frames[depth]? = some frame → frame.get? name = some value → value.Proper ∧
      ∃ log declaration, ledger.logs[depth]? = some log ∧ log.lookup name = some declaration ∧
        declaration.Allows value

theorem Fits.sound {scopes : Scopes} {ledger : Ledger} (fits : Fits scopes ledger) : Sound scopes ledger := by
  intro depth frame name value found stored
  obtain ⟨log, there, fitsLog⟩ := fits.log found
  obtain ⟨proper, declaration, listed, allowed⟩ := fitsLog name value stored
  exact ⟨proper, log, declaration, there, listed, allowed⟩

private theorem fitsLog_globals {session : Session} (reached : Session.Reached session) :
    ∃ log, FitsLog session.globals log := by
  obtain ⟨ledger, started⟩ := reached.started [] ""
  have innermost : (Scopes.single session.globals).frames[0]? = some session.globals := rfl
  obtain ⟨log, _, fits⟩ := started.proper.fits.log innermost
  exact ⟨log, fits⟩

/-- Wherever programs come to, each variable holds what its latest declaration allows, the value at hand is
proper, and a variable that has a kind keeps it until it is declared again. -/
theorem kinds_of_reached {config : Config} {ledger : Ledger} (reached : Reached config ledger) :
    Sound config.state.scopes ledger ∧
      (∀ value operands use, config.control = .value value operands use → value.Proper) ∧
      (∀ later rest, Turns (config, ledger) (later, rest) → ∀ name declaration value after,
        Binds config.state.scopes ledger name declaration value → value.kind ≠ .absent →
        Binds later.state.scopes rest name declaration after → after.kind = value.kind) ∧
      ∀ session, Session.Reached session → ∃ log, FitsLog session.globals log := by
  have proper := reached.proper
  refine ⟨proper.fits.sound, ?_, ?_, fun _ => fitsLog_globals⟩
  · intro value operands use same
    have held := proper.control
    rw [same] at held
    exact held.1
  · intro later rest turns name declaration value after before some_ behind
    exact turns.kind_eq proper before some_ behind

def walk (settings : Settings) : Nat → Config × Ledger → Config × Ledger
  | 0, place => place
  | steps + 1, (config, ledger) => match config.next settings with
    | some later => walk settings steps (later, ledger.after config)
    | none => (config, ledger)

private theorem turns_walk (settings : Settings) (steps : Nat) (place : Config × Ledger) :
    Turns place (walk settings steps place) := by
  induction steps generalizing place with
  | zero => exact .refl
  | succ steps ih =>
    obtain ⟨config, ledger⟩ := place
    unfold walk
    split
    · next later stepped => exact .head (.step settings ledger stepped) (ih _)
    · exact .refl

def insideBlock : Config × Ledger :=
  walk ⟨0, 10⟩ 8 (.ofSource .empty [] "VAR a AS INT\nSTART\nVAR a = 1.5 AS CHAR\na = 'x'\nSTOP\n", .empty)

theorem sound_insideBlock : Reached insideBlock.1 insideBlock.2 ∧
    insideBlock.1.state.scopes.frames.map (fun frame => (frame.get? "a").map Value.kind) =
      [some .character, some .integer] ∧ Sound insideBlock.1.state.scopes insideBlock.2 := by
  have reached : Reached insideBlock.1 insideBlock.2 := ⟨[], _, turns_walk ⟨0, 10⟩ 8 _⟩
  exact ⟨reached, by decide +kernel, (kinds_of_reached reached).1⟩

end Cfpl.Run
