import Cfpl.Proofs.Reading.CompleteLines
import Cfpl.Proofs.Run.Batch
import Cfpl.Proofs.Source.Quotation

/-! A line that outputs quotations shows their texts, one behind the other, and nothing else. Every text can be
shown like this. -/

namespace Cfpl

open Program Grammar
open Source (Quotation)
open Source.Quotation (said saidBehind joined outputLine)

structure Shows (row : List Token) (node : Node) (text : String) : Prop where
  derived : Expression .comparison row node
  value (settings : Run.Settings) (state : Run.State) :
    Run.evaluate settings node state = .ok (.string text) state

namespace Shows

variable {row front : List Token} {token sign : Token} {node : Node} {text : String} {quotation : Quotation}

private theorem literal_of_said (same : token.content = said quotation) :
    Expression .sum [token] (.literal token.literal) ∧
      token.literal = some (.string quotation.text) := by
  have literal : token.literal = some (.string quotation.text) := congrArg (·.2.2) same
  have symbol : token.symbol = .text := congrArg (·.1) same
  exact ⟨.stronger (.stronger (.stronger (.literal (by rw [symbol]; decide)))), literal⟩

theorem single (same : token.content = said quotation) :
    Shows [token] (.literal token.literal) quotation.text := by
  obtain ⟨derived, literal⟩ := literal_of_said same
  refine ⟨.stronger derived, fun settings state => ?_⟩
  rw [literal, Run.evaluate]
  rfl

theorem joined (shows : Shows front node text) (isJoin : sign.symbol = .ampersand)
    (same : token.content = said quotation) :
    Shows (front ++ [sign, token]) (.binary node sign (.literal token.literal)) (text ++ quotation.text) := by
  obtain ⟨derived, literal⟩ := literal_of_said same
  have joins : sign.symbol ∈ Level.comparison.operators := by
    rw [isJoin]
    decide
  refine ⟨.joined joins shows.derived derived, fun settings state => ?_⟩
  have operation : Operation.binary sign (.string text) (.string quotation.text) =
      .ok (.string (text ++ quotation.text)) := by
    unfold Operation.binary
    rw [isJoin]
    rfl
  rw [Run.evaluate, Run.run_bind, shows.value]
  dsimp only
  rw [Run.run_bind, (single same).value]
  dsimp only
  rw [operation]
  rfl

theorem others (others : List Quotation) (shows : Shows front node text)
    (same : row.map Token.content = saidBehind others) :
    ∃ whole, Shows (front ++ row) whole (text ++ Quotation.joined others) := by
  induction others generalizing front node text row with
  | nil =>
    rw [List.map_eq_nil_iff.mp same, List.append_nil]
    exact ⟨node, by simpa [Quotation.joined] using shows⟩
  | cons quotation others ih =>
    obtain ⟨sign, row, rfl, isSign, same⟩ := List.map_eq_cons_iff.mp same
    obtain ⟨token, row, rfl, isQuotation, same⟩ := List.map_eq_cons_iff.mp same
    have isJoin : sign.symbol = .ampersand := congrArg (·.1) isSign
    obtain ⟨whole, shows⟩ := ih (shows.joined isJoin isQuotation) same
    refine ⟨whole, ?_⟩
    rw [Source.Quotation.joined_cons, ← String.append_assoc]
    simpa using shows

end Shows

private theorem read_output {source : String} {first : Quotation} {others : List Quotation}
    (quiet : Source.diagnostics source = [])
    (same : Source.contents source = (.outputWord, "OUTPUT:", none) :: said first ::
      (saidBehind others ++ [(.newline, "\n", none)]) ++ [(.endOfText, "", none)]) :
    ∃ row node, Shows row node (joined (first :: others)) ∧ Program.ofSource source = ⟨[.output node], []⟩ := by
  obtain ⟨inside, ending, whole, same, isEnd⟩ := List.map_eq_append_iff.mp same
  obtain ⟨word, inside, rfl, isWord, same⟩ := List.map_eq_cons_iff.mp same
  obtain ⟨token, inside, rfl, isQuotation, same⟩ := List.map_eq_cons_iff.mp same
  obtain ⟨behind, feeds, rfl, isBehind, fed⟩ := List.map_eq_append_iff.mp same
  obtain ⟨feed, rfl, isFeed⟩ := List.map_eq_singleton_iff.mp fed
  obtain ⟨last, rfl, isLast⟩ := List.map_eq_singleton_iff.mp isEnd
  obtain ⟨node, shows⟩ := (Shows.single isQuotation).others others isBehind
  have derived : Expression .assignment ([token] ++ behind) node :=
    .stronger (.stronger (.stronger (.stronger shows.derived)))
  have newline : feed.symbol = .newline := congrArg (·.1) isFeed
  have lines : Lines False (word :: ([token] ++ behind) ++ [feed] ++ []) [.output node] :=
    .statement (.output (congrArg (·.1) isWord) derived newline) .done
  have read := ofTokens?_of_lines newline (congrArg (·.1) isLast) (.inl rfl) lines
  refine ⟨[token] ++ behind, node, by simpa using shows, ?_⟩
  have spelled : Source.tokens source = word :: ([token] ++ behind) ++ [feed] ++ [] ++ [last] := by
    simpa using whole
  unfold Program.ofSource
  rw [spelled, read, quiet]
  rfl

namespace Session

open Run

private theorem conclude_output {row : List Token} {node : Node} {text : String} (shows : Shows row node text)
    (settings : Settings) (state : State) :
    conclude settings [.output node] state =
      (.completed, (state.record settings (.execute "Print")).emit (.output text)) := by
  have executed (state : State) : execute settings (.output node) state =
      .ok () ((state.record settings (.execute "Print")).emit (.output text)) := by
    rw [execute, run_bind]
    show (evaluate settings node >>= _) _ = _
    rw [run_bind, shows.value]
    rfl
  unfold conclude
  rw [executeAll, run_bind, executed]
  rfl

private theorem run_output {row : List Token} {node : Node} {text : String} (shows : Shows row node text)
    (settings : Settings) (input : List String) (session : Session) :
    (session.run settings input [] [.output node]).1.outcome = .completed ∧
      (session.run settings input [] [.output node]).1.events = [.output text] := by
  have ended := conclude_output shows settings (session.start input [])
  refine ⟨congrArg (·.1) ended, (congrArg (·.2.events.toList) ended).trans ?_⟩
  show (((session.start input []).record settings (.execute "Print")).events.push (.output text)).toList = _
  rw [record_events]
  rfl

end Session

namespace Source.Quotation

private theorem joined_bracketed (characters : List Char) :
    joined (characters.map .bracketed) = .ofList characters := by
  induction characters with
  | nil => rfl
  | cons c characters ih =>
    rw [List.map_cons, joined_cons, ih]
    exact String.toList_inj.mp (by simp [text])

/-- Every text is that of a row of quotations, and a line that outputs a row of quotations is read without a
report and shows their texts, one behind the other, in one output. -/
theorem every_text_is_shown :
    (∀ text, ∃ first others, joined (first :: others) = text) ∧
      ∀ (count : Nat) (first : Quotation) (others : List Quotation),
        let source := outputLine count (first :: others)
        diagnostics source = [] ∧ (Program.ofSource source).diagnostics = [] ∧
          ∀ (settings : Run.Settings) (input : List String) (session : Session),
            ∀ shown ∈ [(session.runText settings input source).1,
                (Session.runProgram settings input source).1],
              shown.outcome = .completed ∧ shown.events = [.output (joined (first :: others))] := by
  refine ⟨fun text => ?_, fun count first others => ?_⟩
  · refine ⟨.plain "" (by decide) (by decide) (by decide), text.toList.map .bracketed, ?_⟩
    rw [joined_cons, joined_bracketed, String.ofList_toList]
    exact String.empty_append
  · have speaks := speaks_outputLine count first others
    have quiet := quiet_of_unflawed speaks.unflawed
    obtain ⟨row, node, shows, read⟩ := read_output quiet (by rw [contents_eq, speaks.contents])
    have silent : (Program.ofSource (outputLine count (first :: others))).diagnostics = [] := by rw [read]
    refine ⟨quiet, silent, fun settings input session => ?_⟩
    rw [Session.runText_of_quiet silent, Session.runProgram_of_read read, read]
    exact List.forall_mem_cons.mpr ⟨Session.run_output shows settings input session,
      List.forall_mem_singleton.mpr (Session.run_output shows settings input .empty)⟩

end Source.Quotation

end Cfpl
