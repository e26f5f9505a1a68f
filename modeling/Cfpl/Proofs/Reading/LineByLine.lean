import Cfpl.Proofs.Reading.Alone
import Cfpl.Proofs.Reading.Row
import Mathlib.Data.List.Forall2

/-! Rows of lines, broken or not. What is skipped of a broken line ends where the line does, so each line is read
as if it stood alone, and no line has an effect on what is read from another one. -/

namespace Cfpl.Program

open Reader

section Recovery

variable {α : Type} {line rest : List Token}

private theorem settle_line {skipped : Token} (isLine : Line rest) (apart : skipped.symbol ≠ .newline) :
    ∃ left, left <:+ rest ∧
      ∀ after, after ≠ [] → settle skipped (rest ++ after) = some (left ++ after) := by
  induction isLine generalizing skipped with
  | @feed token ends =>
    refine ⟨[], List.nil_suffix, fun after some_ => ?_⟩
    obtain ⟨next, after, rfl⟩ := List.exists_cons_of_ne_nil some_
    simp [settle, ends, apart, Symbol.opensStatement]
  | @more token rest plain behind ih =>
    have inside : token.symbol ≠ .endOfText := Symbol.ne_of_plain plain rfl
    by_cases opens : token.symbol.opensStatement
    · refine ⟨token :: rest, List.suffix_refl _, fun after _ => ?_⟩
      simp [settle, opens]
    · have unfed : token.symbol ≠ .newline := Symbol.ne_of_plain plain rfl
      obtain ⟨left, further, settled⟩ := ih unfed
      refine ⟨left, further.trans (List.suffix_cons token rest), fun after some_ => ?_⟩
      rw [← settled after some_]
      simp [settle, inside, apart, opens]

private theorem skipBroken_line (isLine : Line rest) :
    ∃ left, left <:+ rest ∧ left.length < rest.length ∧
      ∀ after, after ≠ [] → skipBroken (rest ++ after) = some (left ++ after) := by
  cases isLine with
  | @feed token ends =>
    refine ⟨[], List.nil_suffix, Nat.one_pos, fun after some_ => ?_⟩
    obtain ⟨next, after, rfl⟩ := List.exists_cons_of_ne_nil some_
    simp [skipBroken, settle, ends]
  | @more token rest plain behind =>
    have inside : token.symbol ≠ .endOfText := Symbol.ne_of_plain plain rfl
    have unfed : token.symbol ≠ .newline := Symbol.ne_of_plain plain rfl
    obtain ⟨left, further, settled⟩ := settle_line behind unfed
    refine ⟨left, further.trans (List.suffix_cons token rest), Nat.lt_succ_of_le further.length_le,
      fun after some_ => ?_⟩
    rw [← settled after some_]
    exact if_neg inside

def Reaches (step : Reader α) (line rest : List Token) (new : List Diagnostic) (a : α) : Prop :=
  ∀ after, after ≠ [] → ∀ reports, step ⟨line ++ after, reports⟩ = .ok a ⟨rest ++ after, reports ++ new⟩

inductive Recovered (step : Reader (List α)) (line : List Token) : Prop
  | read (rest : List Token) (new : List Diagnostic) (as : List α) (behind : rest <:+ line)
    (shorter : rest.length < line.length) (ran : Reaches step line rest new as)
  | exhausted (ran : ∀ after, after ≠ [] → ∀ reports, ∃ position,
      step ⟨line ++ after, reports⟩ = .error .exhausted position)

private theorem Reader.Alone.recovered {step : Reader (List α)} (alone : Alone (· = []) step) (isLine : Line line) :
    Recovered (recovering step) line := by
  cases alone line isLine with
  | read rest new as behind none ran =>
    subst none
    exact .read [] new as behind (List.length_pos_iff.mpr isLine.ne_nil) fun after _ reports =>
      recovering_of_ok (ran after reports)
  | failed rest new trouble behind some_ ran =>
    cases trouble with
    | exhausted =>
      refine .exhausted fun after _ reports => ⟨⟨rest ++ after, reports ++ new⟩, ?_⟩
      unfold recovering
      rw [ran]
    | broken =>
      obtain ⟨left, further, shorter, skipped⟩ := skipBroken_line (isLine.suffix behind some_)
      refine .read left new [] (further.trans behind) (Nat.lt_of_lt_of_le shorter behind.length_le)
        fun after present reports => ?_
      unfold recovering
      rw [ran]
      simp only [skipped after present]

end Recovery

section Limits

variable {line rest : List Token}

private theorem row_of_inside {last : Token} (inside : Inside line) (ends : last.symbol = .endOfText) :
    Row 0 (line.length + 1) (line ++ [last]) (line ++ [last]) := by
  induction line with
  | nil =>
    have row : Row 0 1 [last] [last.shift 0] := .last [] [] ends
    rwa [Token.shift_zero] at row
  | cons token line ih =>
    obtain ⟨open_, others⟩ := List.forall_mem_cons.mp inside
    have row : Row 0 (line.length + 1 + 1) (token :: (line ++ [last])) (token.shift 0 :: (line ++ [last])) :=
      .more open_ (ih others)
    rwa [Token.shift_zero] at row

private theorem takeWhile_inside {last : Token} (inside : Inside line) (ends : last.symbol = .endOfText) :
    (line ++ [last]).takeWhile (fun token => token.symbol ≠ .endOfText) = line := by
  rw [List.takeWhile_append_of_pos fun token member => decide_eq_true (inside token member)]
  simp [ends]

private theorem Row.same_inside {count : Nat} {first second : List Token} (row : Row 0 count first second) :
    first.takeWhile (fun token => token.symbol ≠ .endOfText) =
      second.takeWhile (fun token => token.symbol ≠ .endOfText) := by
  induction row with
  | last first second ends => simp [ends]
  | more inside behind ih => rw [Token.shift_zero, List.takeWhile_cons, List.takeWhile_cons, ih]

private theorem Reader.Alike.of_ok {α : Type} {lines : Int} {count : Nat} {held : α → α → Nat → Prop}
    {a b : α}
    {first second : List Token} {reports others : List Diagnostic}
    (alike : Alike lines count held (.ok a ⟨first, reports⟩) (.ok b ⟨second, others⟩)) :
    ∃ left, Row lines left first second ∧ held a b left ∧ others = reports.map (.shift lines) := by
  cases alike with
  | ok _ row known => exact ⟨_, row, known, rfl⟩

def lineStep (size limit : Nat) : Reader (List Node) :=
  declaration (expression size) limit (statement limit)

section Within

variable {size limit size₂ limit₂ : Nat} (isLine : Line line) (wide : line.length < size)
  (long : line.length < limit)
include isLine wide long

private theorem alike_lineStep {last : Token} (ends : last.symbol = .endOfText) (wide₂ : line.length < size₂)
    (long₂ : line.length < limit₂) :
    Alike 0 (line.length + 1) (fun nodes moved _ => moved = nodes) (lineStep size limit ⟨line ++ [last], []⟩)
      (lineStep size₂ limit₂ ⟨line ++ [last], []⟩) := by
  have opened : 1 < line.length + 1 := Nat.succ_lt_succ (List.length_pos_iff.mpr isLine.ne_nil)
  have agrees : Agrees 0 (line.length + 1) (lineStep size limit) (lineStep size₂ limit₂)
      fun nodes moved left => moved = nodes.map (Node.shift 0) ∧ left < line.length + 1 :=
    agrees_declaration (fun left less => agrees_expression _ _ (by omega) (by omega))
      (fun left less => agrees_statement _ _ (by omega) (by omega)) opened (by omega) (by omega)
  refine agrees.mono (fun nodes moved left _ same => ?_) _ _ [] (row_of_inside isLine.inside ends)
  rw [same.1, ← Node.shiftAll_eq_map, Node.shiftAll_zero]

private theorem reaches_within :
    ∃ rest new nodes, rest <:+ line ∧ rest.length < line.length ∧
      Reaches (lineStep size limit) line rest new nodes := by
  -- No limit is run into in front of the end of the text, and the line does not know what stands behind it.
  let last : Token := ⟨.endOfText, "", none, 0⟩
  have alone := alone_lineParts (Alone.closed.expression size) limit (alone_statement limit)
  have recovered : Recovered (lineStep size limit) line := alone.recovered isLine
  cases recovered with
  | read rest new nodes behind shorter ran => exact ⟨rest, new, nodes, behind, shorter, ran⟩
  | exhausted ran =>
    obtain ⟨position, stopped⟩ := ran [last] (List.cons_ne_nil _ _) []
    have alike := alike_lineStep isLine wide long (rfl : last.symbol = .endOfText) wide long
    rw [stopped] at alike
    cases alike

private theorem reaches_same {rest rest₂ : List Token} {new new₂ : List Diagnostic} {nodes nodes₂ : List Node}
    (wide₂ : line.length < size₂) (long₂ : line.length < limit₂) (behind : rest <:+ line)
    (behind₂ : rest₂ <:+ line) (reaches : Reaches (lineStep size limit) line rest new nodes)
    (reaches₂ : Reaches (lineStep size₂ limit₂) line rest₂ new₂ nodes₂) :
    rest₂ = rest ∧ new₂ = new ∧ nodes₂ = nodes := by
  let last : Token := ⟨.endOfText, "", none, 0⟩
  have ends : last.symbol = .endOfText := rfl
  have alike := alike_lineStep isLine wide long ends wide₂ long₂
  rw [reaches [last] (List.cons_ne_nil _ _) [], reaches₂ [last] (List.cons_ne_nil _ _) []] at alike
  obtain ⟨_, row, same, reported⟩ := alike.of_ok
  have left := row.same_inside
  rw [takeWhile_inside (isLine.inside_suffix behind) ends,
    takeWhile_inside (isLine.inside_suffix behind₂) ends] at left
  rw [funext Diagnostic.shift_zero, List.map_id'] at reported
  exact ⟨left.symm, reported, same⟩

end Within

private theorem reaches_lineStep (isLine : Line line) :
    ∃ rest new nodes, rest <:+ line ∧ rest.length < line.length ∧ ∀ size limit, line.length < size →
      line.length < limit → Reaches (lineStep size limit) line rest new nodes := by
  have covered := Nat.lt_succ_self line.length
  obtain ⟨rest, new, nodes, behind, shorter, reaches⟩ := reaches_within isLine covered covered
  refine ⟨rest, new, nodes, behind, shorter, fun size limit wide long => ?_⟩
  obtain ⟨rest₂, new₂, nodes₂, behind₂, _, reaches₂⟩ := reaches_within isLine wide long
  obtain ⟨rfl, rfl, rfl⟩ := reaches_same isLine covered covered wide long behind behind₂ reaches reaches₂
  exact reaches₂

end Limits

section Loop

variable {done : Reader Bool} {step : Reader (List Node)} {line front back rest : List Token}
  {nodes others : List Node} {new newer : List Diagnostic} {rounds further : Nat}

def Passes (done : Reader Bool) (step : Reader (List Node)) (tokens : List Token) (nodes : List Node)
    (new : List Diagnostic) (rounds : Nat) : Prop :=
  ∀ more after, after ≠ [] → ∀ reports, upTo done step (more + rounds) ⟨tokens ++ after, reports⟩ =
    (upTo done step more >>= fun others => pure (nodes ++ others)) ⟨after, reports ++ new⟩

namespace Passes

theorem nil : Passes done step [] [] [] 0 := by
  intro more after _ reports
  simp

theorem round (later : Passes done step rest others newer rounds)
    (goes : ∀ after, Reads done [] false (line ++ after)) (reaches : Reaches step line rest new nodes) :
    Passes done step line (nodes ++ others) (new ++ newer) (rounds + 1) := by
  intro more after some_ reports
  calc upTo done step (more + rounds + 1) ⟨line ++ after, reports⟩
    _ = (step >>= fun first => upTo done step (more + rounds) >>= fun others => pure (first ++ others))
          ⟨line ++ after, reports⟩ := (goes after).leads _ reports
    _ = (upTo done step (more + rounds) >>= fun others => pure (nodes ++ others))
          ⟨rest ++ after, reports ++ new⟩ := by rw [bind_eq, reaches after some_]
    _ = ((upTo done step more >>= fun others_ => pure (others ++ others_)) >>= fun others =>
          pure (nodes ++ others)) ⟨after, reports ++ new ++ newer⟩ := bind_at (later more after some_ _) _
    _ = _ := by simp only [bind_assoc, pure_bind, List.append_assoc]

theorem append (first : Passes done step front nodes new rounds)
    (second : Passes done step back others newer further) :
    Passes done step (front ++ back) (nodes ++ others) (new ++ newer) (further + rounds) := by
  intro more after some_ reports
  calc upTo done step (more + (further + rounds)) ⟨front ++ back ++ after, reports⟩
    _ = (upTo done step (more + further) >>= fun others => pure (nodes ++ others))
          ⟨back ++ after, reports ++ new⟩ := by
        rw [← Nat.add_assoc, List.append_assoc]
        exact first (more + further) (back ++ after) (List.append_ne_nil_of_right_ne_nil _ some_) reports
    _ = ((upTo done step more >>= fun others_ => pure (others ++ others_)) >>= fun others =>
          pure (nodes ++ others)) ⟨after, reports ++ new ++ newer⟩ := bind_at (second more after some_ _) _
    _ = _ := by simp only [bind_assoc, pure_bind, List.append_assoc]

theorem stops (passes : Passes done step front nodes new rounds) (some_ : rest ≠ [])
    (ends : Reads done [] true rest) {limit : Nat} (enough : rounds < limit) (reports : List Diagnostic) :
    upTo done step limit ⟨front ++ rest, reports⟩ = .ok nodes ⟨rest, reports ++ new⟩ := by
  obtain ⟨more, rfl⟩ : ∃ more, limit = more + rounds := ⟨limit - rounds, by omega⟩
  have stopped : Reads (upTo done step more) [] [] rest := reads_upTo_done ends (by omega)
  refine (passes more rest some_ reports).trans ((bind_of_ok (stopped _) _).trans ?_)
  rw [List.append_nil]
  rfl

end Passes

def GoesOn (done : Reader Bool) (line : List Token) : Prop :=
  ∀ rest after, rest <:+ line → rest ≠ [] → Reads done [] false (rest ++ after)

/-- What is read of the line and reported about it, in whatever loop. -/
def Gives (line : List Token) (program : Program) : Prop :=
  ∃ rounds ≤ line.length, ∀ done size limit, GoesOn done line →
    line.length < size → line.length < limit →
    Passes done (lineStep size limit) line program.statements program.diagnostics rounds

theorem Line.gives (isLine : Line line) : ∃ program, Gives line program := by
  -- A round may leave a part of the line, behind which reading goes on in front of an opening word.
  induction size : line.length using Nat.strongRecOn generalizing line with
  | ind length ih =>
    subst size
    obtain ⟨rest, new, nodes, behind, shorter, reaches⟩ := reaches_lineStep isLine
    by_cases none : rest = []
    · subst none
      refine ⟨⟨nodes, new⟩, 1, List.length_pos_iff.mpr isLine.ne_nil,
        fun done size limit goes wide long => ?_⟩
      have round := Passes.nil.round (fun after => goes line after (List.suffix_refl line) isLine.ne_nil)
        (reaches size limit wide long)
      rwa [List.append_nil, List.append_nil] at round
    · obtain ⟨program, rounds, few, passes⟩ := ih rest.length shorter (isLine.suffix behind none) rfl
      refine ⟨⟨nodes ++ program.statements, new ++ program.diagnostics⟩, rounds + 1, by omega,
        fun done size limit goes wide long => ?_⟩
      have goesRest : GoesOn done rest := fun left after further => goes left after (further.trans behind)
      exact (passes done size limit goesRest (by omega) (by omega)).round
        (fun after => goes line after (List.suffix_refl line) isLine.ne_nil) (reaches size limit wide long)

private theorem passes_flatten {lines : List (List Token)} {programs : List Program}
    (given : List.Forall₂ Gives lines programs) {size limit : Nat} (wide : lines.flatten.length < size)
    (long : lines.flatten.length < limit) (goes : ∀ line ∈ lines, GoesOn done line) :
    ∃ rounds ≤ lines.flatten.length, Passes done (lineStep size limit) lines.flatten
      (programs.flatMap Program.statements) (programs.flatMap Program.diagnostics) rounds := by
  induction given with
  | nil => exact ⟨0, Nat.le_refl _, .nil⟩
  | @cons line program lines programs first rest ih =>
    simp only [List.flatten_cons, List.length_append] at wide long ⊢
    obtain ⟨here, others⟩ := List.forall_mem_cons.mp goes
    obtain ⟨rounds, few, passes⟩ := first
    obtain ⟨further, fewer, later⟩ := ih (by omega) (by omega) others
    exact ⟨further + rounds, by omega, (passes done size limit here (by omega) (by omega)).append later⟩

end Loop

private theorem goesOn_atEnd {line : List Token} (isLine : Line line) : GoesOn atEnd line := by
  intro rest after behind some_
  obtain ⟨token, rest, rfl⟩ := List.exists_cons_of_ne_nil some_
  have inside : token.symbol ≠ .endOfText := isLine.inside_suffix behind token (.head _)
  exact reads_atEnd_inside inside (rest ++ after)

def blockEnd : Reader Bool := do return (← at? .stop) || (← atEnd)

private theorem goesOn_blockEnd {line : List Token} (isLine : Line line)
    (noStop : ∀ token ∈ line, token.symbol ≠ .stop) : GoesOn blockEnd line := by
  intro rest after behind some_
  obtain ⟨token, rest, rfl⟩ := List.exists_cons_of_ne_nil some_
  have inside : token.symbol ≠ .endOfText := isLine.inside_suffix behind token (.head _)
  have apart : token.symbol ≠ .stop := noStop token (behind.subset (.head _))
  exact StatementIsRead.reads_blockEnd (rest ++ after) (by simp [inside, apart])

private theorem ofTokens?_of_statement {token last : Token} {tokens : List Token} {node : Node} {new : List Diagnostic}
    (inside : token.symbol ≠ .endOfText) (untyped : token.symbol ≠ .varWord) (some_ : tokens ≠ [])
    (ends : last.symbol = .endOfText)
    (read : statement (tokens.length + 1) ⟨token :: tokens, []⟩ = .ok node ⟨[last], new⟩) :
    ofTokens? (token :: tokens) = some ⟨[node], new⟩ := by
  let step := lineStep (tokens.length + 1) (tokens.length + 1)
  have noVar : Reads (accept .varWord) [] false (token :: tokens) :=
    reads_accept_none ⟨token, rfl, .inr (by simpa using untyped)⟩
  have first : step ⟨token :: tokens, []⟩ = .ok [node] ⟨[last], new⟩ :=
    recovering_of_ok ((noVar.leads _ []).trans (bind_of_ok read _))
  have behind : Reads (upTo atEnd step tokens.length) [] [] [last] :=
    reads_upTo_done (reads_atEnd_last ends []) (List.length_pos_iff.mpr some_)
  have ended : Reads (upTo atEnd step tokens.length >>= fun others => pure ([node] ++ others)) [] [node] [last] :=
    behind.before (.pure _ _)
  have whole : reader (tokens.length + 1) ⟨token :: tokens, []⟩ = .ok [node] ⟨[last], new⟩ :=
    ((reads_atEnd_inside inside tokens).leads _ []).trans <| (bind_of_ok first _).trans (ended _)
  unfold ofTokens?
  rw [List.length_cons, whole]

section Whole

variable {tokens : List Token} {nodes : List Node} {new : List Diagnostic} {rounds : Nat} {last : Token}
  (few : rounds ≤ tokens.length) (ends : last.symbol = .endOfText)
include few ends

private theorem ofTokens?_of_passes
    (passes : Passes atEnd (lineStep (tokens.length + 1) (tokens.length + 1)) tokens nodes new rounds) :
    ofTokens? (tokens ++ [last]) = some ⟨nodes, new⟩ := by
  have read := passes.stops (List.cons_ne_nil _ _) (reads_atEnd_last ends []) (Nat.lt_succ_of_le few) []
  unfold ofTokens? reader
  rw [List.length_append, List.length_singleton]
  unfold lineStep at read
  rw [read]
  rfl

section Block

variable {start feed stop close : Token} (isStart : start.symbol = .start) (isFeed : feed.symbol = .newline)
  (isStop : stop.symbol = .stop) (isClose : close.symbol = .newline)
include isStart isFeed isStop isClose

omit ends in
private theorem statement_of_passes {limit : Nat} (enough : tokens.length < limit)
    (passes : Passes blockEnd (lineStep (limit + 1) limit) tokens nodes new rounds) (reports : List Diagnostic) :
    statement (limit + 1) ⟨start :: feed :: (tokens ++ [stop, close, last]), reports⟩ =
      .ok (.block nodes) ⟨[last], reports ++ new⟩ := by
  have opens : Reads (take? startsLines) [start] (some start) (feed :: (tokens ++ [stop, close, last])) :=
    reads_take? (by simp [isStart]) (by rw [isStart]; rfl) _
  have fed : Reads (endLine "Expect line break after 'START'.") [feed] () (tokens ++ [stop, close, last]) :=
    reads_endLine (.inl rfl : Whole feed [feed] _ [feed]) isFeed _
  have stops : Reads blockEnd [] true [stop, close, last] :=
    StatementIsRead.reads_blockEnd _ (by simp [isStop])
  have body := passes.stops (List.cons_ne_nil _ _) stops (Nat.lt_of_le_of_lt few enough) reports
  have closes : Reads (endLine "Expect line break after 'STOP'.") [close] () [last] :=
    reads_endLine (.inl rfl : Whole close [close] _ [close]) isClose _
  have ended : Reads (endLine "Expect line break after 'STOP'." >>= fun _ => pure (Node.block nodes)) [close]
      (.block nodes) [last] := closes.behind (.pure _ _)
  have stopped : Reads (expect .stop "Expect 'STOP' after block.") [stop] stop [close, last] :=
    reads_expect isStop (by decide) _ _
  unfold statement
  refine (opens.leads _ reports).trans ?_
  simp only [Option.map_some, isStart]
  exact (fed.leads _ reports).trans <| (bind_of_ok body _).trans <| (stopped.leads _ _).trans (ended _)

private theorem ofTokens?_of_block {limit : Nat} (size : limit = tokens.length + 4)
    (passes : Passes blockEnd (lineStep (limit + 1) limit) tokens nodes new rounds) :
    ofTokens? (start :: feed :: tokens ++ [stop, close, last]) = some ⟨[.block nodes], new⟩ := by
  have covered : (feed :: (tokens ++ [stop, close, last])).length = limit := by simp [size]
  rw [List.cons_append, List.cons_append]
  refine ofTokens?_of_statement (by rw [isStart]; decide) (by rw [isStart]; decide)
    (List.cons_ne_nil _ _) ends ?_
  rw [covered]
  exact statement_of_passes few isStart isFeed isStop isClose (by omega) passes []

end Block

end Whole

private theorem gives_lines {lines : List (List Token)} (alone : ∀ line ∈ lines, Line line) :
    ∃ programs, List.Forall₂ Gives lines programs := by
  induction lines with
  | nil => exact ⟨[], .nil⟩
  | cons line lines ih =>
    obtain ⟨first, others⟩ := List.forall_mem_cons.mp alone
    obtain ⟨program, gives⟩ := first.gives
    obtain ⟨programs, rest⟩ := ih others
    exact ⟨program :: programs, .cons gives rest⟩

private theorem ofTokens?_of_gives {line : List Token} {program : Program} {last : Token} (isLine : Line line)
    (gives : Gives line program) (ends : last.symbol = .endOfText) :
    ofTokens? (line ++ [last]) = some program := by
  obtain ⟨rounds, few, passes⟩ := gives
  exact ofTokens?_of_passes few ends
    (passes atEnd _ _ (goesOn_atEnd isLine) (Nat.lt_succ_self _) (Nat.lt_succ_self _))

/-- Lines that open nothing are read one by one, whatever is wrong with them: what is read of them all is what is
read of each, and so are the reports. In a block they are its body. -/
theorem read_line_by_line {lines : List (List Token)} (alone : ∀ line ∈ lines, Line line) :
    ∃ programs : List Program,
      List.Forall₂ (fun line program => ∀ last : Token, last.symbol = .endOfText →
        ofTokens? (line ++ [last]) = some program) lines programs ∧
      (∀ last : Token, last.symbol = .endOfText → ofTokens? (lines.flatten ++ [last]) =
        some ⟨programs.flatMap Program.statements, programs.flatMap Program.diagnostics⟩) ∧
      ((∀ line ∈ lines, ∀ token ∈ line, token.symbol ≠ .stop) → ∀ start feed stop close last : Token,
        start.symbol = .start → feed.symbol = .newline → stop.symbol = .stop → close.symbol = .newline →
        last.symbol = .endOfText → ofTokens? (start :: feed :: lines.flatten ++ [stop, close, last]) =
          some ⟨[.block (programs.flatMap Program.statements)], programs.flatMap Program.diagnostics⟩) := by
  obtain ⟨programs, given⟩ := gives_lines alone
  refine ⟨programs, ?_, ?_, ?_⟩
  · have both := (List.forall₂_and_left lines programs).mpr ⟨alone, given⟩
    exact both.imp fun line program known last ends => ofTokens?_of_gives known.1 known.2 ends
  · intro last ends
    obtain ⟨rounds, few, passes⟩ := passes_flatten given (Nat.lt_succ_self _) (Nat.lt_succ_self _)
      fun line member => goesOn_atEnd (alone line member)
    exact ofTokens?_of_passes few ends passes
  · intro noStop start feed stop close last isStart isFeed isStop isClose ends
    obtain ⟨rounds, few, passes⟩ := @passes_flatten blockEnd lines programs given
      (lines.flatten.length + 5) (lines.flatten.length + 4) (by omega) (by omega)
      fun line member => goesOn_blockEnd (alone line member) (noStop line member)
    exact ofTokens?_of_block few ends isStart isFeed isStop isClose rfl passes

def outputTwice : List Token :=
  [⟨.outputWord, "OUTPUT:", none, 2⟩, ⟨.rightParen, ")", none, 2⟩, ⟨.outputWord, "OUTPUT:", none, 2⟩,
    ⟨.identifier, "a", none, 2⟩, ⟨.newline, "\n", none, 2⟩]

def typeMissing : List Token :=
  [⟨.varWord, "VAR", none, 3⟩, ⟨.identifier, "b", none, 3⟩, ⟨.asWord, "AS", none, 3⟩,
    ⟨.newline, "\n", none, 3⟩]

def targetNegated : List Token :=
  [⟨.minus, "-", none, 4⟩, ⟨.identifier, "a", none, 4⟩, ⟨.equal, "=", none, 4⟩,
    ⟨.identifier, "c", none, 4⟩, ⟨.newline, "\n", none, 4⟩]

theorem brokenLines_read :
    (∀ line ∈ [outputTwice, typeMissing, targetNegated], Line line) ∧
      ofTokens? (⟨.start, "START", none, 1⟩ :: ⟨.newline, "\n", none, 1⟩ ::
          [outputTwice, typeMissing, targetNegated].flatten ++
          [⟨.stop, "STOP", none, 5⟩, ⟨.newline, "\n", none, 5⟩, ⟨.endOfText, "", none, 6⟩]) =
        some ⟨[.block [.output (.reference ⟨.identifier, "a", none, 2⟩),
            .expression (.unary ⟨.minus, "-", none, 4⟩ (.reference ⟨.identifier, "a", none, 4⟩))]],
          [.atToken ⟨.rightParen, ")", none, 2⟩ "Expect expression.",
            .atToken ⟨.newline, "\n", none, 3⟩ "Expect data type after 'AS'.",
            .atToken ⟨.equal, "=", none, 4⟩ "Invalid assignment target."]⟩ := by
  have alone : ∀ line ∈ [outputTwice, typeMissing, targetNegated], Line line := by
    have first : Line outputTwice := .more rfl (.more rfl (.more rfl (.more rfl (.feed rfl))))
    have second : Line typeMissing := .more rfl (.more rfl (.more rfl (.feed rfl)))
    have third : Line targetNegated := .more rfl (.more rfl (.more rfl (.more rfl (.feed rfl))))
    simp [first, second, third]
  obtain ⟨programs, each, _, inBlock⟩ := read_line_by_line alone
  have read := inBlock (by decide) ⟨.start, "START", none, 1⟩ ⟨.newline, "\n", none, 1⟩
    ⟨.stop, "STOP", none, 5⟩ ⟨.newline, "\n", none, 5⟩ ⟨.endOfText, "", none, 6⟩ rfl rfl rfl rfl rfl
  refine ⟨alone, read.trans ?_⟩
  obtain _ | ⟨first, others⟩ := each
  obtain _ | ⟨second, others⟩ := others
  obtain _ | ⟨third, none⟩ := others
  cases none
  obtain rfl := Option.some.inj (first ⟨.endOfText, "", none, 0⟩ rfl)
  obtain rfl := Option.some.inj (second ⟨.endOfText, "", none, 0⟩ rfl)
  obtain rfl := Option.some.inj (third ⟨.endOfText, "", none, 0⟩ rfl)
  rfl

end Cfpl.Program
