import Cfpl.Proofs.Run.Congruence
import Cfpl.Session

/-! Runs that are traced in different detail. A run in less detail is the run in more detail with the finer
entries taken out of its trace; nothing else depends on the trace, so nothing else depends on the detail. -/

namespace Cfpl

namespace TraceEntry

def showsVariable : TraceEntry → Bool
  | define _ _ | assign _ _ | input _ _ => true
  | execute _ | halt _ | branch _ | loop _ => false

def showsCondition : TraceEntry → Bool
  | branch _ | loop _ => true
  | execute _ | halt _ | define _ _ | assign _ _ | input _ _ => false

private theorem level_pos (entry : TraceEntry) : 0 < entry.level := by
  cases entry <;> simp [level]

private theorem level_le_three (entry : TraceEntry) : entry.level ≤ 3 := by
  cases entry <;> simp [level]

private theorem level_le_two (entry : TraceEntry) : entry.level ≤ 2 ↔ ¬entry.showsCondition := by
  cases entry <;> simp [level, showsCondition]

private theorem level_le_one (entry : TraceEntry) :
    entry.level ≤ 1 ↔ ¬entry.showsVariable ∧ ¬entry.showsCondition := by
  cases entry <;> simp [level, showsVariable, showsCondition]

end TraceEntry

namespace Run

variable {α β : Type} {detail : Nat}

def State.upTo (detail : Nat) (state : State) : State :=
  { state with trace := state.trace.filter fun entry => entry.level ≤ detail }

def endUpTo (detail : Nat) : EStateM.Result Halt State α → EStateM.Result Halt State α
  | .ok a state => .ok a (state.upTo detail)
  | .error halt state => .error halt (state.upTo detail)

def Coarsens (detail : Nat) (run other : Run α) : Prop :=
  ∀ state : State, run (state.upTo detail) = endUpTo detail (other state)

namespace Coarsens

theorem bind {run other : Run α} {next later : α → Run β} (first : Coarsens detail run other)
    (second : ∀ a, Coarsens detail (next a) (later a)) :
    Coarsens detail (run >>= next) (other >>= later) := by
  intro state
  rw [run_bind, run_bind, first state]
  cases other state with
  | ok a after => exact second a after
  | error halt after => rfl

theorem inScope {run other : Run α} (coarsens : Coarsens detail run other) :
    Coarsens detail (Run.inScope run) (Run.inScope other) := by
  intro state
  have inside : run (state.upTo detail).enterScope = endUpTo detail (other state.enterScope) :=
    coarsens state.enterScope
  unfold Run.inScope
  rw [inside]
  cases other state.enterScope <;> rfl

theorem lookup (name : Token) : Coarsens detail (Run.lookup name) (Run.lookup name) := by
  intro state
  unfold Run.lookup
  rw [show (state.upTo detail).scopes = state.scopes from rfl]
  cases state.scopes.get? name.lexeme <;> rfl

theorem tryAssign (name : Token) (value : Value) :
    Coarsens detail (Run.tryAssign name value) (Run.tryAssign name value) := by
  intro state
  unfold Run.tryAssign
  rw [show (state.upTo detail).scopes = state.scopes from rfl]
  cases state.scopes.assign name.lexeme value <;> rfl

end Coarsens

section Settings

variable {settings other : Settings} (finer : settings.detail ≤ other.detail)
include finer

private theorem record_upTo (entry : TraceEntry) (state : State) :
    (state.upTo settings.detail).record settings entry =
      (state.record other entry).upTo settings.detail := by
  unfold State.record
  by_cases shown : entry.level ≤ settings.detail
  · rw [if_pos shown, if_pos (Nat.le_trans shown finer)]
    simp [State.upTo, shown]
  · rw [if_neg shown]
    split <;> simp [State.upTo, shown]

def coarsening (rounds : settings.rounds = other.rounds) : Congruence settings other where
  rounds := rounds
  lines := 0
  named _ := True
  marked _ := True
  opened _ := True
  opened_succ _ := trivial
  Relates _ _ run otherRun := Coarsens settings.detail run otherRun
  pure _ _ := rfl
  raise {_ _ halt} _ _ := by rw [Halt.shift_zero]; rfl
  bind first second := .bind first second
  inScope coarsens := .inScope coarsens
  record entry state := congrArg (EStateM.Result.ok ()) (record_upTo finer entry state)
  output _ _ := rfl
  report {_ token} _ _ _ := by rw [Token.shift_zero]; rfl
  readLine _ := rfl
  lookup {_ name} _ := by rw [Token.shift_zero]; exact .lookup name
  tryAssign {_ name} value _ := by rw [Token.shift_zero]; exact .tryAssign name value
  define _ _ _ _ := rfl

private theorem coarsens_executeAll (rounds : settings.rounds = other.rounds) (statements : List Node) :
    Coarsens settings.detail (executeAll settings statements) (executeAll other statements) :=
  (coarsening finer rounds).executeAllSame rfl 0 ⟨fun _ _ => trivial, fun _ _ => trivial⟩ fun closed =>
    absurd trivial closed

private theorem halted_upTo (state : State) (halt : Halt) :
    Session.halted settings (state.upTo settings.detail) halt =
      (Session.halted other state halt).map id (State.upTo settings.detail) := by
  cases halt with
  | fault token fault =>
    simp only [Session.halted, record_upTo finer]
    rfl
  | misuse misuse => rfl
  | unfinished => rfl

private theorem conclude_upTo (rounds : settings.rounds = other.rounds) (statements : List Node) (state : State) :
    Session.conclude settings statements (state.upTo settings.detail) =
      (Session.conclude other statements state).map id (State.upTo settings.detail) := by
  unfold Session.conclude
  rw [coarsens_executeAll finer rounds statements state]
  cases executeAll other statements state with
  | ok _ after => rfl
  | error halt after => exact halted_upTo finer after halt

end Settings

end Run

namespace Transcript

def upTo (detail : Nat) (transcript : Transcript) : Transcript :=
  { transcript with trace := transcript.trace.filter fun entry => entry.level ≤ detail }

end Transcript

namespace Session

variable (session : Session) (input : List String) (reported : List Diagnostic) (statements : List Node)

private theorem run_upTo {detail more : Nat} (finer : detail ≤ more) (rounds : Nat) :
    session.run ⟨detail, rounds⟩ input reported statements =
      (session.run ⟨more, rounds⟩ input reported statements).map (Transcript.upTo detail) id := by
  have finer : (Run.Settings.mk detail rounds).detail ≤ (Run.Settings.mk more rounds).detail := finer
  have concluded := Run.conclude_upTo finer rfl statements (session.start input reported)
  unfold Session.run
  rw [show (session.start input reported).upTo detail = session.start input reported from rfl] at concluded
  rw [concluded]
  simp [Run.State.upTo, Transcript.upTo]

private theorem trace_of_run {detail more : Nat} (finer : detail ≤ more) (rounds : Nat) :
    (session.run ⟨detail, rounds⟩ input reported statements).1.trace =
      (session.run ⟨more, rounds⟩ input reported statements).1.trace.filter
        fun entry => entry.level ≤ detail := by
  rw [session.run_upTo input reported statements finer rounds]
  rfl

/-- But for the trace, runs in two details are both what the finer one of them is. -/
theorem run_apart_from_trace (detail other rounds : Nat) :
    let first := session.run ⟨detail, rounds⟩ input reported statements
    let second := session.run ⟨other, rounds⟩ input reported statements
    first.1.outcome = second.1.outcome ∧ first.1.events = second.1.events ∧ first.2 = second.2 := by
  rw [session.run_upTo input reported statements (Nat.le_max_left detail other) rounds,
    session.run_upTo input reported statements (Nat.le_max_right detail other) rounds]
  exact ⟨rfl, rfl, rfl⟩

/-- The detail decides what is traced, and nothing else. Level one traces what is executed and what halts
the program, level two also what the variables are given, level three also the values of the conditions,
and there is nothing else to trace. -/
theorem detail_decides_trace_only :
    let run (detail rounds : Nat) := session.run ⟨detail, rounds⟩ input reported statements
    (∀ detail other rounds : Nat,
      (run detail rounds).1.outcome = (run other rounds).1.outcome ∧
        (run detail rounds).1.events = (run other rounds).1.events ∧
        (run detail rounds).2 = (run other rounds).2) ∧
    (∀ detail other : Nat, (∀ rounds, (run detail rounds).1.outcome = .unfinished) ↔
      ∀ rounds, (run other rounds).1.outcome = .unfinished) ∧
    ∀ rounds : Nat,
      (run 0 rounds).1.trace = [] ∧
      (run 1 rounds).1.trace = (run 3 rounds).1.trace.filter
        (fun entry => !entry.showsVariable && !entry.showsCondition) ∧
      (run 2 rounds).1.trace = (run 3 rounds).1.trace.filter (fun entry => !entry.showsCondition) ∧
      ∀ more ≥ 3, (run more rounds).1.trace = (run 3 rounds).1.trace := by
  intro run
  have same := session.run_apart_from_trace input reported statements
  refine ⟨same, fun detail other => ?_, fun rounds => ?_⟩
  · exact forall_congr' fun rounds => by rw [(same detail other rounds).1]
  · have traced {detail more : Nat} (finer : detail ≤ more) : (run detail rounds).1.trace =
        (run more rounds).1.trace.filter fun entry => entry.level ≤ detail :=
      session.trace_of_run input reported statements finer rounds
    refine ⟨?_, ?_, ?_, fun more finer => ?_⟩
    · rw [traced (Nat.zero_le 3), List.filter_eq_nil_iff]
      intro entry _
      have positive := entry.level_pos
      simp only [decide_eq_true_eq]
      omega
    · rw [traced (show 1 ≤ 3 by decide)]
      congr 1
      funext entry
      simp [TraceEntry.level_le_one]
    · rw [traced (show 2 ≤ 3 by decide)]
      congr 1
      funext entry
      simp [TraceEntry.level_le_two]
    · rw [traced finer, List.filter_eq_self.mpr]
      intro entry _
      exact decide_eq_true entry.level_le_three

end Session

end Cfpl
