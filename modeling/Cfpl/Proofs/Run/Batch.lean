import Cfpl.Proofs.Reading.Joined
import Cfpl.Proofs.Run.CountingLoop
import Cfpl.Proofs.Run.Reached
import Cfpl.Proofs.Source.Layout
import Cfpl.Proofs.Source.Seam

/-! Two texts that are run as one do what they do one after the other in a session. The statements of the
second stand further down by the lines of the first; it finds the variables that the first has left, and the
lines that the first has not read. -/

namespace Cfpl

namespace Program

private theorem inside_spelled (source : String) : Inside ((Source.pieces source).filterMap Source.Piece.token?) :=
  (Source.layout_pieces .initial source.toList [] none Source.Context.fits_initial).inText

private theorem read_of_quiet {source : String} (quiet : (ofSource source).diagnostics = []) :
    Source.diagnostics source = [] ∧
      ofTokens? (Source.tokens source) = some ⟨(ofSource source).statements, []⟩ := by
  obtain ⟨program, found, _⟩ := ofTokens?_tokens source
  have made : ofSource source =
      { program with diagnostics := Source.diagnostics source ++ program.diagnostics } := by
    unfold ofSource
    rw [found]
  rw [made] at quiet ⊢
  obtain ⟨none, silent⟩ := List.append_eq_nil_iff.mp quiet
  refine ⟨none, found.trans ?_⟩
  rw [← silent]

private theorem ofSource_append {first : String} (second : String)
    (closed : first = "" ∨ first.toList.getLast? = some '\n')
    (quietFirst : (ofSource first).diagnostics = []) (quietSecond : (ofSource second).diagnostics = []) :
    ofSource (first ++ second) = ⟨(ofSource first).statements ++
      Node.shiftAll (Source.lineFeeds first.toList) (ofSource second).statements, []⟩ := by
  obtain ⟨silentFirst, readFirst⟩ := read_of_quiet quietFirst
  obtain ⟨silentSecond, readSecond⟩ := read_of_quiet quietSecond
  have whole := Source.whole_of_quiet silentFirst
  have moved := ofTokens?_shift (Source.lineFeeds first.toList) rfl readSecond
  have joined := ofTokens?_joined (inside_spelled first) (inside_shift (inside_spelled second) _)
    (Source.fed_tokens closed whole) rfl rfl readFirst moved
  have parted : (Source.tokens second).map (Token.shift (Source.lineFeeds first.toList)) =
      ((Source.pieces second).filterMap Source.Piece.token?).map
        (Token.shift (Source.lineFeeds first.toList)) ++
        [(Source.endToken second).shift (Source.lineFeeds first.toList)] := List.map_append
  have reports : Source.diagnostics (first ++ second) = [] := by
    rw [Source.diagnostics_append second closed whole, silentFirst, silentSecond]
    rfl
  unfold ofSource
  rw [Source.tokens_append second closed whole, parted, joined, reports]
  rfl

end Program

namespace Run

private theorem length_of_assign {scopes after : Scopes} {name : String} {value : Value}
    (assigned : scopes.assign name value = .ok after) : after.outer.length = scopes.outer.length :=
  Nat.succ.inj (length_of_assignAmong (assignAmong_frames scopes assigned))

namespace Likeness

def reading (lines : List String) : Likeness where
  lines := 0
  opened _ := True
  opened_succ _ := trivial
  scopes depth first second := first = second ∧ first.outer.length = depth
  console pending events others since :=
    pending = others ∧ events = since ∧ pending = lines.drop (linesRead events.toList)
  get? alike name := by rw [alike.1]
  assigned {depth first second} alike name value := by
    obtain ⟨rfl, count⟩ := alike
    cases assigned : first.assign name value with
    | ok after => exact .ok ⟨rfl, (length_of_assign assigned).trans count⟩
    | error fault => exact .error fault
  defined _ alike name value := ⟨by rw [alike.1], alike.2⟩
  entered alike := ⟨by rw [alike.1], congrArg Nat.succ alike.2⟩
  left {depth first second} alike := by
    obtain ⟨rfl, count⟩ := alike
    obtain ⟨inner, outer⟩ := first
    cases outer with
    | nil => cases count
    | cons frame outer => exact ⟨rfl, Nat.succ.inj count⟩
  shown alike text := ⟨alike.1, by rw [alike.2.1], by simpa [linesRead, Event.isInput] using alike.2.2⟩
  reported alike diagnostic := ⟨alike.1, by rw [alike.2.1, Diagnostic.shift_zero],
    by simpa [linesRead, Event.isInput] using alike.2.2⟩
  read {pending others events since} alike := by
    obtain ⟨rfl, rfl, left⟩ := alike
    refine ⟨rfl, rfl, rfl, ?_⟩
    rw [left]
    simp [linesRead, Event.isInput]

def behind (lines : Int) (before : Array Event) : Likeness :=
  { plain with
    lines := lines
    console := fun pending events others since =>
      pending = others ∧ since = before ++ events.map (Event.shift lines)
    shown := fun alike text => ⟨alike.1, by rw [alike.2]; simp [Event.shift]⟩
    reported := fun alike diagnostic => ⟨alike.1, by rw [alike.2]; simp [Event.shift]⟩
    read := fun alike =>
      ⟨by rw [alike.1], by rw [alike.1], by rw [alike.2]; simp [Event.shift, alike.1]⟩ }

end Likeness

private theorem conclude_append (settings : Settings) (front back : List Node) (state : State) :
    Session.conclude settings (front ++ back) state =
      match executeAll settings front state with
      | .ok () after => Session.conclude settings back after
      | .error halt after => Session.halted settings after halt := by
  unfold Session.conclude
  rw [executeAll_append, run_bind]
  cases executeAll settings front state <;> rfl

variable {settings : Settings} {input : List String}

private theorem left_of_completed {statements : List Node} {globals : Frame} {after : State}
    (ended : executeAll settings statements (Session.start ⟨globals, .empty⟩ input []) = .ok () after) :
    after.scopes = .single after.scopes.globals ∧
      after.pending = input.drop (linesRead after.events.toList) := by
  have keeps : (Likeness.reading input).Keeps 0 (executeAll settings statements)
      (executeAll settings statements) := keeps_sameAll rfl trivial statements
  have begun : (Likeness.reading input).States 0 (Session.start ⟨globals, .empty⟩ input [])
      (Session.start ⟨globals, .empty⟩ input []) := ⟨⟨rfl, rfl⟩, rfl, rfl, rfl⟩
  have alike := keeps _ _ begun
  rw [ended] at alike
  cases alike with
  | ok _ alike =>
    refine ⟨?_, alike.console.2.2⟩
    have alone : after.scopes.outer = [] := List.eq_nil_of_length_eq_zero alike.scopes.2
    obtain ⟨⟨inner, outer⟩, _, _, _⟩ := after
    cases alone
    rfl

end Run

namespace Session

open Run

variable {settings : Settings} {input : List String} {session : Session}

theorem runText_of_quiet {source : String} (quiet : (Program.ofSource source).diagnostics = []) :
    session.runText settings input source =
      session.run settings input [] (Program.ofSource source).statements := by
  show session.run settings input (Program.ofSource source).diagnostics _ = _
  rw [quiet]

theorem runProgram_of_read {source : String} {statements : List Node}
    (read : Program.ofSource source = ⟨statements, []⟩) :
    runProgram settings input source = empty.run settings input [] statements := by
  unfold runProgram
  rw [read]
  rfl

theorem halted_ne_completed (state : State) (halt : Halt) :
    (halted settings state halt).1 ≠ .completed := by
  cases halt <;> exact Outcome.noConfusion

/-- What is read as one row of statements runs as the first of them and then, if these are completed, as the
others in the session that they leave. -/
theorem run_append (front back : List Node) (lines : Int) :
    let whole := empty.run settings input [] (front ++ Node.shiftAll lines back)
    let first := empty.run settings input [] front
    let second := first.2.run settings (input.drop (linesRead first.1.events)) [] back
    (first.1.outcome ≠ .completed → whole.1.outcome = first.1.outcome ∧
      whole.1.events = first.1.events ∧ whole.2.globals = first.2.globals) ∧
    (first.1.outcome = .completed → whole.1.outcome = second.1.outcome ∧
      whole.1.events = first.1.events ++ second.1.events.map (Event.shift lines) ∧
      whole.2.globals = second.2.globals) := by
  intro whole first second
  have wholeEnds := conclude_append settings front (Node.shiftAll lines back) (empty.start input [])
  have firstEnds : conclude settings front (empty.start input []) =
      match executeAll settings front (empty.start input []) with
      | .ok () after => (.completed, after)
      | .error halt after => halted settings after halt := rfl
  cases ended : executeAll settings front (empty.start input []) with
  | error halt after =>
    rw [ended] at wholeEnds firstEnds
    have same : conclude settings (front ++ Node.shiftAll lines back) (empty.start input []) =
        conclude settings front (empty.start input []) := wholeEnds.trans firstEnds.symm
    have halts : first.1.outcome ≠ .completed := by
      show (conclude settings front (empty.start input [])).1 ≠ .completed
      rw [firstEnds]
      exact halted_ne_completed after halt
    refine ⟨fun _ => ⟨congrArg (·.1) same, congrArg (·.2.events.toList) same,
      congrArg (·.2.scopes.globals) same⟩, fun completed => absurd completed halts⟩
  | ok _ after =>
    rw [ended] at wholeEnds firstEnds
    obtain ⟨scopes, pending⟩ := left_of_completed ended
    have outcome : first.1.outcome = .completed := congrArg (·.1) firstEnds
    have events : first.1.events = after.events.toList := congrArg (·.2.events.toList) firstEnds
    have globals : first.2.globals = after.scopes.globals := congrArg (·.2.scopes.globals) firstEnds
    refine ⟨fun halts => absurd outcome halts, fun _ => ?_⟩
    have begun : (Likeness.behind lines after.events).States 0
        (first.2.start (input.drop (linesRead first.1.events)) []) after := by
      refine ⟨?_, ?_, ?_⟩
      · show Scopes.single first.2.globals = after.scopes
        rw [globals, ← scopes]
      · rw [events, ← pending]
        rfl
      · simp [start]
    obtain ⟨alike, left⟩ := Likeness.conclude_alike (Eq.refl settings.rounds) trivial begun back
    have shown : (conclude settings (Node.shiftAll lines back) after).2.events = after.events ++
        (conclude settings back (first.2.start _ [])).2.events.map (Event.shift lines) := left.console.2
    have kept : (conclude settings back (first.2.start _ [])).2.scopes =
        (conclude settings (Node.shiftAll lines back) after).2.scopes := left.scopes
    refine ⟨(congrArg (·.1) wholeEnds).trans alike.symm, ?_, ?_⟩
    · have wholeEvents : whole.1.events =
          (conclude settings (Node.shiftAll lines back) after).2.events.toList :=
        congrArg (·.2.events.toList) wholeEnds
      rw [wholeEvents, shown, Array.toList_append, Array.toList_map, ← events]
      rfl
    · exact (congrArg (·.2.scopes.globals) wholeEnds).trans (congrArg Scopes.globals kept).symm

/-- Two texts without a report, of which the first ends with a line feed or is empty, are read as one text
without a report. Run as one, they do what they do in a session one after the other. -/
theorem texts_run_as_one {first : String} (second : String)
    (closed : first = "" ∨ first.toList.getLast? = some '\n')
    (quietFirst : (Program.ofSource first).diagnostics = [])
    (quietSecond : (Program.ofSource second).diagnostics = []) :
    Program.ofSource (first ++ second) = ⟨(Program.ofSource first).statements ++
        Node.shiftAll (Source.lineFeeds first.toList) (Program.ofSource second).statements, []⟩ ∧
      ∀ settings input,
        let whole := runProgram settings input (first ++ second)
        let front := empty.runText settings input first
        let back := front.2.runText settings (input.drop (linesRead front.1.events)) second
        (front.1.outcome ≠ .completed → whole.1.outcome = front.1.outcome ∧
          whole.1.events = front.1.events ∧ whole.2.globals = front.2.globals) ∧
        (front.1.outcome = .completed → whole.1.outcome = back.1.outcome ∧
          whole.1.events =
            front.1.events ++ back.1.events.map (Event.shift (Source.lineFeeds first.toList)) ∧
          whole.2.globals = back.2.globals) := by
  have joined := Program.ofSource_append second closed quietFirst quietSecond
  refine ⟨joined, fun settings input => ?_⟩
  dsimp only
  rw [runProgram_of_read joined, runText_of_quiet quietFirst, runText_of_quiet quietSecond]
  exact run_append _ _ _

def readingText : String := "VAR a AS INT\nINPUT: a\n"

def showingText : String := "* shown\nOUTPUT: a\nOUTPUT: b"

theorem reading_and_showing_run_as_one :
    readingText.toList.getLast? = some '\n' ∧ (Program.ofSource readingText).diagnostics = [] ∧
      (Program.ofSource showingText).diagnostics = [] ∧
      (runProgram ⟨0, 10⟩ ["5"] (readingText ++ showingText)).1.events =
        [.input (some "5"), .output "5",
          .report (.stopping ⟨.identifier, "b", none, 5⟩ "Undefined variable 'b'.")] := by
  have ends : readingText.toList.getLast? = some '\n' := by decide +kernel
  have quietReading : (Program.ofSource readingText).diagnostics = [] := by decide +kernel
  have quietShowing : (Program.ofSource showingText).diagnostics = [] := by decide +kernel
  obtain ⟨_, runs⟩ := texts_run_as_one showingText (.inr ends) quietReading quietShowing
  have completed : (empty.runText ⟨0, 10⟩ ["5"] readingText).1.outcome = .completed := by decide +kernel
  have events := ((runs ⟨0, 10⟩ ["5"]).2 completed).2.1
  refine ⟨ends, quietReading, quietShowing, events.trans ?_⟩
  decide +kernel

end Session

end Cfpl
