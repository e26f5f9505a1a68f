import Cfpl.Proofs.Run.Reached

/-! Programs are halted by nothing but their own faults. A text is always read, and what is read of it can
be run, whatever was reported about it and whatever ran before in the session. -/

namespace Cfpl

/-- The only ways for a run to end; an unfinished one has not ended. -/
def Outcome.Expected (outcome : Outcome) : Prop := outcome ∈ [completed, stopped, unfinished]

namespace Run

private theorem Reached.not_misused {config : Config} {ledger : Ledger} (reached : Reached config ledger)
    (misuse : Misuse) : config.control ≠ .raised (.misuse misuse) := by
  intro raised
  have held := reached.proper.control
  rw [raised] at held
  exact held

theorem Reached.expected {config : Config} {ledger : Ledger} (reached : Reached config ledger)
    {settings : Settings} {outcome : Outcome} (ends : config.EndsIn settings outcome) :
    outcome.Expected := by
  rcases ends with ⟨_, rfl⟩ | ⟨halt, raised, rfl⟩
  · exact .head _
  · cases halt with
    | fault token fault => exact .tail _ (.head _)
    | misuse misuse => exact absurd raised (reached.not_misused misuse)
    | unfinished => exact .tail _ (.tail _ (.head _))

end Run

namespace Session

variable {session : Session}

theorem expected_runText (reached : Reached session) (settings : Run.Settings) (input : List String)
    (source : String) : (session.runText settings input source).1.outcome.Expected := by
  by_cases ended : (session.runText settings input source).1.outcome = .unfinished
  · rw [ended]
    exact .tail _ (.tail _ (.head _))
  · obtain ⟨ledger, started⟩ := reached.started input source
    obtain ⟨config, rest, there, _, _, ends⟩ := runText_reached started ended
    exact there.expected ends

private theorem expected_runProgram (settings : Run.Settings) (input : List String) (source : String) :
    (runProgram settings input source).1.outcome.Expected := by
  by_cases quiet : (Program.ofSource source).diagnostics.isEmpty
  · have same : runProgram settings input source = empty.runText settings input source := by
      unfold runProgram runText
      dsimp only
      rw [if_pos quiet]
    rw [same]
    exact expected_runText .empty settings input source
  · unfold runProgram
    dsimp only
    rw [if_neg quiet]
    exact .head _

/-- A text is always read as a program. If its run ends, it ends normally or is stopped by a fault of the
program; without a limit for loops, too, nothing else is ever raised on the way. -/
theorem ends_as_expected (reached : Reached session) (settings : Run.Settings) (input : List String)
    (source : String) :
    (∃ program, Program.ofTokens? (Source.tokens source) = some program) ∧
      (runProgram settings input source).1.outcome.Expected ∧
      (session.runText settings input source).1.outcome.Expected ∧
      ∀ config, Run.Steps settings (.ofSource session.globals input source) config →
        ∀ misuse, config.control ≠ .raised (.misuse misuse) := by
  obtain ⟨program, found, _⟩ := Program.ofTokens?_tokens source
  refine ⟨⟨program, found⟩, expected_runProgram settings input source,
    expected_runText reached settings input source, fun config steps misuse => ?_⟩
  obtain ⟨ledger, firstInput, firstSource, turns⟩ := reached.started input source
  obtain ⟨rest, onward⟩ := Run.Turns.ofSteps steps ledger
  have there : Run.Reached config rest := ⟨firstInput, firstSource, turns.trans onward⟩
  exact there.not_misused misuse

def broken : Session :=
  (empty.runText ⟨3, 10⟩ [] "VAR a AS STRING\nSTART\nb = 1 +\na = b\nSTOP\n").2

theorem broken_ends_as_expected : Reached broken ∧
    (broken.runText ⟨3, 10⟩ [] "START\na = \"x\"\nOUTPUT: a / 0\nSTOP\n").1.outcome.Expected := by
  have reached : Reached broken := .text _ _ _ .empty (by decide +kernel)
  exact ⟨reached, (ends_as_expected reached _ _ _).2.2.1⟩

end Session

end Cfpl
