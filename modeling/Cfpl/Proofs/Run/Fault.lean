import Cfpl.Proofs.Run.Batch
import Cfpl.Proofs.Run.Cause
import Cfpl.Proofs.Run.Reports
import Cfpl.Proofs.Run.Safety

/-! A fault halts a program once and for good. It is the last thing that the run shows and the only report of its
kind; the statements behind the one that fails make no difference. -/

namespace Cfpl

section Flags

private theorem reporter_add (journal : Journal) (diagnostic : Diagnostic) :
    (journal.add diagnostic).reporter = journal.reporter.report diagnostic := by
  unfold Reporter.report Journal.reporter Journal.add Journal.hadError Journal.hadRuntimeError
  cases known : diagnostic.runtime <;> simp [known]

private theorem reporter_addAll (journal : Journal) (diagnostics : List Diagnostic) :
    (journal.addAll diagnostics).reporter = diagnostics.foldl Reporter.report journal.reporter := by
  induction diagnostics generalizing journal with
  | nil => rfl
  | cons diagnostic diagnostics ih =>
    rw [List.foldl_cons, ← reporter_add, ← ih]
    rfl

namespace Session

private theorem entries_of_shown {session : Session} {events : List Event} (shown : session.Shown events) :
    session.journal.entries = events.filterMap Event.diagnostic? := by
  induction shown with
  | nothing => rfl
  | more settings input reported statements before ih =>
    rw [List.filterMap_append, ← ih]
    exact Journal.entries_addAll _ _

private theorem mem_reports {events : List Event} {diagnostic : Diagnostic} :
    diagnostic ∈ events.filterMap Event.diagnostic? ↔ .report diagnostic ∈ events := by
  rw [List.mem_filterMap]
  constructor
  · rintro ⟨event, member, shown⟩
    cases event <;> cases shown
    exact member
  · exact fun member => ⟨_, member, rfl⟩

private theorem hadRuntimeError_of_shown {session : Session} {events : List Event} (shown : session.Shown events) :
    session.journal.hadRuntimeError ↔ ∃ diagnostic, .report diagnostic ∈ events ∧ diagnostic.runtime := by
  unfold Journal.hadRuntimeError
  rw [entries_of_shown shown, List.any_eq_true]
  simp only [mem_reports]

private theorem hadError_of_shown {session : Session} {events : List Event} (shown : session.Shown events) :
    session.journal.hadError ↔ ∃ diagnostic, .report diagnostic ∈ events ∧ ¬diagnostic.runtime := by
  unfold Journal.hadError
  rw [entries_of_shown shown, List.any_eq_true]
  simp only [mem_reports, Bool.not_eq_true', Bool.not_eq_true]

end Session

end Flags

namespace Run

variable {settings : Settings} {statements : List Node} {state after : State} {halt : Halt}

private theorem calm_executeAll (settings : Settings) (statements : List Node) (state : State) :
    match executeAll settings statements state with
    | .ok _ after | .error _ after => after.Told state.events.toList (·.runtime = false) := by
  have made : ∀ node ∈ statements, node.MadeOf fun _ => True :=
    fun _ _ => ⟨fun _ _ => trivial, fun _ _ => trivial⟩
  have started : state.Told state.events.toList (·.runtime = false) :=
    ⟨[], (List.append_nil _).symm, fun _ member => nomatch member⟩
  have ended := tells_executeAll settings (fun _ _ _ => rfl) made state started
  generalize executeAll settings statements state = result at ended ⊢
  cases result with
  | ok _ after => exact ended
  | error halt after => exact ended.2

private theorem toList_halted (token : Token) (fault : Fault) (state : State) :
    (Session.halted settings state (.fault token fault)).2.events.toList =
      state.events.toList ++ [.report (.stopping token fault.message)] := by
  unfold Session.halted State.record State.emit
  dsimp only
  split <;> exact Array.toList_push

private theorem stopped_iff_fault : (Session.conclude settings statements state).1 = .stopped ↔
    ∃ token fault after, executeAll settings statements state = .error (.fault token fault) after := by
  unfold Session.conclude
  cases ran : executeAll settings statements state with
  | ok _ after => simp
  | error halt after =>
    cases halt <;> simp [Session.halted]

private theorem first_halted (failed : executeAll settings statements state = .error halt after) :
    ∃ front failing rest middle, statements = front ++ failing :: rest ∧
      executeAll settings front state = .ok () middle ∧ execute settings failing middle = .error halt after := by
  induction statements generalizing state with
  | nil => cases failed
  | cons first others ih =>
    rw [executeAll, run_bind] at failed
    cases ran : execute settings first state with
    | error other last =>
      rw [ran] at failed
      cases failed
      exact ⟨[], first, others, state, rfl, rfl, ran⟩
    | ok _ middle =>
      rw [ran] at failed
      obtain ⟨front, failing, rest, last, rfl, completed, halted⟩ := ih failed
      refine ⟨first :: front, failing, rest, last, rfl, ?_, halted⟩
      rw [executeAll, run_bind, ran]
      exact completed

private theorem executeAll_unreached {front : List Node} {failing : Node} {middle : State}
    (completed : executeAll settings front state = .ok () middle)
    (halted : execute settings failing middle = .error halt after) (others : List Node) :
    executeAll settings (front ++ failing :: others) state = .error halt after := by
  rw [executeAll_append, run_bind, completed]
  dsimp only
  rw [executeAll, run_bind, halted]

private theorem executeAll_of_completed
    (completed : (Session.conclude settings statements state).1 = .completed) :
    ∃ after, executeAll settings statements state = .ok () after := by
  unfold Session.conclude at completed
  cases ran : executeAll settings statements state with
  | ok _ after => exact ⟨after, rfl⟩
  | error halt after =>
    rw [ran] at completed
    exact absurd completed (Session.halted_ne_completed after halt)

private theorem halted_of_first {front : List Node} {failing : Node} {middle : State}
    (completed : executeAll settings front state = .ok () middle)
    (failed : executeAll settings (front ++ [failing]) state = .error halt after) :
    execute settings failing middle = .error halt after := by
  rw [executeAll_append, run_bind, completed] at failed
  dsimp only at failed
  rw [executeAll, run_bind] at failed
  cases ran : execute settings failing middle with
  | ok _ last =>
    rw [ran] at failed
    cases failed
  | error other last =>
    rw [ran] at failed
    exact failed

end Run

namespace Session

open Run

variable {session : Session} {settings : Settings} {input : List String} {reported : List Diagnostic}
  {statements : List Node}

private theorem events_of_run (session : Session) (settings : Settings) (input : List String)
    (reported : List Diagnostic) (statements : List Node) :
    ∃ calm ending, (session.run settings input reported statements).1.events =
        reported.map .report ++ (calm ++ ending) ∧
      (∀ diagnostic, .report diagnostic ∈ calm → diagnostic.runtime = false) ∧
      ((session.run settings input reported statements).1.outcome ≠ .stopped ∧ ending = [] ∨
        (session.run settings input reported statements).1.outcome = .stopped ∧
          ∃ (token : Token) (fault : Fault), ending = [.report (.stopping token fault.message)]) := by
  have told := calm_executeAll settings statements (session.start input reported)
  have begun : (session.start input reported).events.toList = reported.map .report := rfl
  unfold run conclude
  dsimp only
  generalize executeAll settings statements (session.start input reported) = result at told ⊢
  cases result with
  | ok _ after =>
    obtain ⟨calm, split, none⟩ := told
    exact ⟨calm, [], by rw [List.append_nil, ← begun]; exact split, none, .inl ⟨Outcome.noConfusion, rfl⟩⟩
  | error halt after =>
    obtain ⟨calm, split, none⟩ := told
    rw [begun] at split
    cases halt with
    | fault token fault =>
      refine ⟨calm, _, ?_, none, .inr ⟨rfl, token, fault, rfl⟩⟩
      rw [toList_halted, split, List.append_assoc]
    | misuse misuse =>
      exact ⟨calm, [], by rw [List.append_nil]; exact split, none, .inl ⟨Outcome.noConfusion, rfl⟩⟩
    | unfinished =>
      exact ⟨calm, [], by rw [List.append_nil]; exact split, none, .inl ⟨Outcome.noConfusion, rfl⟩⟩

private theorem stopped_of_run : (session.run settings input reported statements).1.outcome = .stopped ↔
    ∃ token fault after,
      executeAll settings statements (session.start input reported) = .error (.fault token fault) after :=
  stopped_iff_fault

private theorem run_of_failed {token : Token} {fault : Fault} {after : State} {others : List Node}
    (failed : executeAll settings statements (session.start input reported) = .error (.fault token fault) after)
    (failedToo : executeAll settings others (session.start input reported) = .error (.fault token fault) after) :
    session.run settings input reported others = session.run settings input reported statements := by
  unfold run conclude
  rw [failed, failedToo]

private theorem completed_of_run {after : State}
    (ended : executeAll settings statements (session.start input reported) = .ok () after) :
    (session.run settings input reported statements).1.outcome = .completed := by
  unfold run conclude
  rw [ended]

private theorem getLast?_of_failed {token : Token} {fault : Fault} {after : State}
    (failed : executeAll settings statements (session.start input reported) = .error (.fault token fault) after) :
    (session.run settings input reported statements).1.events.getLast? =
      some (.report (.stopping token fault.message)) := by
  unfold run conclude
  rw [failed]
  dsimp only
  rw [toList_halted]
  exact List.getLast?_concat

private theorem last_of_calm {calm ending earlier later : List Event} {diagnostic : Diagnostic}
    (none : ∀ other, .report other ∈ calm → other.runtime = false) (short : ending.length ≤ 1)
    (split : calm ++ ending = earlier ++ .report diagnostic :: later) (stops : diagnostic.runtime) :
    later = [] ∧ earlier = calm := by
  have absent : .report diagnostic ∉ calm := fun member => by
    rw [none diagnostic member] at stops
    cases stops
  rcases List.append_eq_append_iff.mp split with ⟨middle, rfl, rest⟩ | ⟨middle, rfl, rest⟩
  · rw [rest, List.length_append, List.length_cons] at short
    obtain ⟨rfl, rfl⟩ : middle = [] ∧ later = [] :=
      ⟨List.eq_nil_of_length_eq_zero (by omega), List.eq_nil_of_length_eq_zero (by omega)⟩
    exact ⟨rfl, List.append_nil calm⟩
  · cases middle with
    | nil =>
      rw [List.nil_append] at rest
      rw [← rest, List.length_cons] at short
      exact ⟨List.eq_nil_of_length_eq_zero (by omega), (List.append_nil earlier).symm⟩
    | cons first middle =>
      obtain ⟨rfl, _⟩ := List.cons.inj rest
      exact absurd (List.mem_append_right earlier (.head middle)) absent

/-- A program is stopped if and only if it reports that something stopped it; it reports that once, and shows nothing
behind it. The statement that fails has been reached, no other one behind it is, and what it fails by is a step in
an expression or an input line that names no variable. The flags of the session say what has been reported in all
its runs. -/
theorem fault_halts_once (session : Session) (settings : Settings) (input : List String)
    (reported : List Diagnostic) (statements : List Node) :
    let run := session.run settings input reported
    let result := run statements
    (∃ new, result.1.events = reported.map .report ++ new ∧
      (result.1.outcome = .stopped ↔ ∃ diagnostic, .report diagnostic ∈ new ∧ diagnostic.runtime) ∧
      ∀ earlier diagnostic later, new = earlier ++ .report diagnostic :: later → diagnostic.runtime →
        later = [] ∧ ∀ other, .report other ∈ earlier → ¬other.runtime) ∧
    (result.1.outcome = .stopped → ∃ front failing rest, statements = front ++ failing :: rest ∧
      (run front).1.outcome = .completed ∧ (run (front ++ [failing])).1.outcome = .stopped) ∧
    (∀ front failing rest, statements = front ++ failing :: rest → (run front).1.outcome = .completed →
      (run (front ++ [failing])).1.outcome = .stopped → ∀ others, run (front ++ failing :: others) = result) ∧
    (result.1.outcome = .stopped → ∃ config token fault left last,
      Steps settings ⟨.done, [.rest statements], session.start input reported⟩ config ∧
      config.next settings = some ⟨.raised (.fault token fault), left, last⟩ ∧ config.Faults token fault ∧
      result.1.events.getLast? = some (.report (.stopping token fault.message))) ∧
    (result.1.events.filterMap Event.diagnostic?).foldl Reporter.report session.journal.reporter =
      result.2.journal.reporter ∧
    (∀ events, session.Shown events →
      (result.2.journal.hadRuntimeError ↔
        ∃ diagnostic, .report diagnostic ∈ events ++ result.1.events ∧ diagnostic.runtime) ∧
      (result.2.journal.hadError ↔
        ∃ diagnostic, .report diagnostic ∈ events ++ result.1.events ∧ ¬diagnostic.runtime)) ∧
    (Reached session → ∀ source, (session.runText settings input source).1.outcome ≠ .unfinished →
      (session.runText settings input source).1.outcome = .completed ∨
        (session.runText settings input source).1.outcome = .stopped) := by
  intro run result
  refine ⟨?_, ?_, ?_, ?_, (reporter_addAll session.journal _).symm, fun events shown => ?_,
    fun reached source ends => ?_⟩
  · obtain ⟨calm, ending, split, none, ends⟩ := session.events_of_run settings input reported statements
    refine ⟨calm ++ ending, split, ⟨fun stopped => ?_, ?_⟩, ?_⟩
    · rcases ends with ⟨other, _⟩ | ⟨_, token, fault, rfl⟩
      · exact absurd stopped other
      · exact ⟨_, List.mem_append_right calm (.head _), rfl⟩
    · rintro ⟨diagnostic, member, stops⟩
      rcases List.mem_append.mp member with early | last
      · rw [none diagnostic early] at stops
        cases stops
      · rcases ends with ⟨_, rfl⟩ | ⟨stopped, _⟩
        · cases last
        · exact stopped
    · intro earlier diagnostic later whole stops
      have short : ending.length ≤ 1 := by
        rcases ends with ⟨_, rfl⟩ | ⟨_, _, _, rfl⟩
        · exact Nat.zero_le 1
        · exact Nat.le_refl 1
      obtain ⟨rfl, rfl⟩ := last_of_calm none short whole stops
      exact ⟨rfl, fun other member => Bool.not_eq_true _ |>.mpr (none other member)⟩
  · intro stopped
    obtain ⟨token, fault, after, failed⟩ := stopped_of_run.mp stopped
    obtain ⟨front, failing, rest, middle, whole, completed, halted⟩ := first_halted failed
    exact ⟨front, failing, rest, whole, completed_of_run completed, stopped_of_run.mpr
      ⟨token, fault, after, executeAll_unreached completed halted []⟩⟩
  · intro front failing rest whole completed stopped others
    obtain ⟨middle, ran⟩ := executeAll_of_completed completed
    obtain ⟨token, fault, after, failed⟩ := stopped_of_run.mp stopped
    have halted := halted_of_first ran failed
    refine run_of_failed (?_ : executeAll settings statements _ = .error (.fault token fault) after)
      (executeAll_unreached ran halted others)
    rw [whole]
    exact executeAll_unreached ran halted rest
  · intro stopped
    obtain ⟨token, fault, after, failed⟩ := stopped_of_run.mp stopped
    obtain ⟨config, left, last, steps, stepped, faults⟩ := cause_of_fault failed
    exact ⟨config, token, fault, left, last, steps, stepped, faults, getLast?_of_failed failed⟩
  · have behind := Shown.more settings input reported statements shown
    exact ⟨hadRuntimeError_of_shown behind, hadError_of_shown behind⟩
  · have expected := expected_runText reached settings input source
    unfold Outcome.Expected at expected
    simpa [ends] using expected

/-- A declaration without a value that it needs, a line with too many fields, and one with a field that does not fit;
then a division by zero in a loop inside of a block, in front of another statement. -/
def troubled : List Node :=
  (Program.ofSource ("VAR a AS INT\nVAR s AS STRING\nSTART\nINPUT: a\nINPUT: a\nWHILE (0 == a)\nSTART\n" ++
    "OUTPUT: 6 / a\nSTOP\nSTOP\nOUTPUT: 2\n")).statements

theorem troubled_halts_once :
    ((empty.run ⟨0, 10⟩ ["1,2", "x"] [] troubled).1.events.filterMap Event.diagnostic?).map
        (fun report => (report.line, report.runtime)) =
      [(2, false), (4, false), (5, false), (5, false), (8, true)] ∧
      ∃ front failing rest, troubled = front ++ failing :: rest ∧
        (empty.run ⟨0, 10⟩ ["1,2", "x"] [] front).1.outcome = .completed ∧
        empty.run ⟨0, 10⟩ ["1,2", "x"] [] (front ++ [failing]) =
          empty.run ⟨0, 10⟩ ["1,2", "x"] [] troubled := by
  have shown : (empty.run ⟨0, 10⟩ ["1,2", "x"] [] troubled).1.outcome = .stopped ∧
      ((empty.run ⟨0, 10⟩ ["1,2", "x"] [] troubled).1.events.filterMap Event.diagnostic?).map
        (fun report => (report.line, report.runtime)) =
      [(2, false), (4, false), (5, false), (5, false), (8, true)] := by decide +kernel
  obtain ⟨_, reached, unreached, _⟩ := fault_halts_once empty ⟨0, 10⟩ ["1,2", "x"] [] troubled
  obtain ⟨front, failing, rest, whole, completed, fails⟩ := reached shown.1
  exact ⟨shown.2, front, failing, rest, whole, completed, unreached front failing rest whole completed fails []⟩

end Session

end Cfpl
