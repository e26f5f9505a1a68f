import Cfpl.Run.Machine
import Mathlib.Logic.Relation

/-! The small steps lead where the run of a program leads. From an expression they lead to its value, from
a statement to the place behind it, and a fault is raised in both with the same state. Only a run that is
cut off by its limit of rounds has no end in small steps. -/

namespace Cfpl.Run

variable (settings : Settings)

abbrev Steps : Config → Config → Prop :=
  Relation.ReflTransGen fun before after => before.next settings = some after

variable {settings} {α β : Type}

def Move.config (move : Move) (tasks : List Task) (state : State) : Config :=
  ⟨move.control, move.waits ++ tasks, state⟩

variable (settings) in
/-- The steps from a place of the program do what the run does. -/
def Follows (run : Run α) (start : Move) (finish : α → Move) : Prop :=
  ∀ tasks state, match run state with
    | .ok a after => Steps settings (start.config tasks state) ((finish a).config tasks after)
    | .error halt after => halt ≠ .unfinished →
      Steps settings (start.config tasks state) ⟨.raised halt, tasks, after⟩

namespace Follows

variable {start middle : Move} {finish : β → Move}

theorem bind {run : Run α} {next : α → Run β} {between : α → Move}
    (first : Follows settings run start between)
    (second : ∀ a, Follows settings (next a) (between a) finish) :
    Follows settings (run >>= next) start finish := by
  intro tasks state
  have begun := first tasks state
  change match EStateM.bind run next state with | .ok a after => _ | .error halt after => _
  unfold EStateM.bind
  generalize run state = result at begun ⊢
  cases result with
  | error halt after => exact begun
  | ok a after =>
    have continued := second a tasks after
    dsimp only at begun ⊢
    generalize next a after = result at continued ⊢
    cases result with
    | ok b last => exact begun.trans continued
    | error halt last => exact fun ended => begun.trans (continued ended)

theorem step {run : Run β} (steps : ∀ tasks state, (start.config tasks state).next settings =
      some (.after tasks ((run >>= fun b => pure (finish b)) state))) :
    Follows settings run start finish := by
  intro tasks state
  have stepped := steps tasks state
  change _ = some (Config.after tasks (EStateM.bind run (fun b => pure (finish b)) state)) at stepped
  unfold EStateM.bind at stepped
  generalize run state = result at stepped ⊢
  cases result with
  | ok b after => exact .single stepped
  | error halt after => exact fun _ => .single stepped

theorem silent {run : Run β} (steps : ∀ tasks state, (start.config tasks state).next settings =
      some (middle.config tasks state)) (onward : Follows settings run middle finish) :
    Follows settings run start finish := by
  intro tasks state
  have continued := onward tasks state
  generalize run state = result at continued ⊢
  cases result with
  | ok b after => exact .head (steps tasks state) continued
  | error halt after => exact fun ended => .head (steps tasks state) (continued ended)

theorem raise {run : Run β} {halt : Halt} (steps : ∀ tasks state, (start.config tasks state).next settings =
      some ⟨.raised halt, tasks, state⟩) (raises : ∀ state, run state = .error halt state) :
    Follows settings run start finish := by
  intro tasks state
  rw [raises state]
  exact fun _ => .single (steps tasks state)

end Follows

private theorem evaluate_follows : ∀ (node : Node) (operands : List Operand) (use : Use),
    Follows settings (evaluate settings node) ⟨.evaluate node operands use, []⟩
      fun value => ⟨.value value operands use, []⟩
  | .literal (some value), operands, use => .step fun _ _ => rfl
  | .grouping body, operands, use => .silent (fun _ _ => rfl) (evaluate_follows body operands use)
  | .reference name, operands, use => .step fun _ _ => rfl
  | .assign name body, operands, use =>
    .silent (fun _ _ => rfl) ((evaluate_follows body (.assign name :: operands) use).bind fun value =>
      .step fun _ _ => rfl)
  | .unary operator right, operands, use =>
    .silent (fun _ _ => rfl) ((evaluate_follows right (.unary operator :: operands) use).bind fun value =>
      .step fun _ _ => rfl)
  | .logical left operator right, operands, use => by
    refine .silent (fun _ _ => rfl)
      ((evaluate_follows left (.logical operator right :: operands) use).bind fun first => ?_)
    split
    · next settled => exact .step fun _ _ => by simp only [Move.config, Config.next, supply, if_pos settled]; rfl
    · next unsettled =>
      refine .silent (fun _ _ => ?_) (evaluate_follows right operands use)
      simp only [Move.config, Config.next, supply, if_neg unsettled]
      rfl
  | .binary left operator right, operands, use =>
    .silent (fun _ _ => rfl) ((evaluate_follows left (.left operator right :: operands) use).bind fun first =>
      .silent (fun _ _ => rfl) ((evaluate_follows right (.right operator first :: operands) use).bind
        fun second => .step fun _ _ => rfl))
  | .literal none, _, _ => .raise (fun _ _ => rfl) fun _ => rfl
  | .absent, _, _ | .list _, _, _ | .expression _, _, _ | .output _, _, _ | .declare _ _ _, _, _
  | .block _, _, _ | .input _, _, _ | .branch _ _ _, _, _ | .loop _ _, _, _ =>
    .raise (fun _ _ => rfl) fun _ => rfl
termination_by structural node => node

private theorem inputFields_follows (names : List Token) (fields : List String) :
    Follows settings (inputFields settings names fields) ⟨.done, [.fields names fields]⟩
      fun _ => ⟨.done, []⟩ := by
  induction names generalizing fields with
  | nil => exact .step fun _ _ => rfl
  | cons name names ih =>
    cases fields with
    | nil => exact .step fun _ _ => rfl
    | cons field fields =>
      have first : Follows settings (inputField settings name field)
          ⟨.done, [.fields (name :: names) (field :: fields)]⟩ fun _ => ⟨.done, [.fields names fields]⟩ :=
        .step fun _ _ => rfl
      exact first.bind fun _ => ih fields

theorem Follows.waiting {run : Run α} {start : Move} {finish : α → Move}
    (follows : Follows settings run start finish) (task : Task) (plain : task ≠ .leave) :
    Follows settings run ⟨start.control, start.waits ++ [task]⟩
      fun a => ⟨(finish a).control, (finish a).waits ++ [task]⟩ := by
  intro tasks state
  have led := follows (task :: tasks) state
  generalize run state = result at led ⊢
  cases result with
  | ok a after => simpa [Move.config] using led
  | error halt after =>
    refine fun ended => Relation.ReflTransGen.tail (by simpa [Move.config] using led ended) ?_
    cases task with
    | leave => exact absurd rfl plain
    | _ => rfl

section Statements

variable {body : Node}

theorem Follows.entered {node : Node} {run : Run β} {middle : Move} {finish : β → Move}
    (enters : enterBody settings node = pure middle) (onward : Follows settings run middle finish) :
    Follows settings (do record settings (.execute node.label); run) ⟨.execute node, []⟩ finish := by
  have recorded : Follows settings (record settings (.execute node.label)) ⟨.execute node, []⟩
      fun _ => middle :=
    .step fun _ _ => by simp only [Move.config, Config.next, enterStatement, enters]; rfl
  exact recorded.bind fun _ => onward

private theorem whileHolds_follows (condition : Node)
    (follows : Follows settings (execute settings body) ⟨.execute body, []⟩ fun _ => ⟨.done, []⟩)
    (rounds : Nat) :
    Follows settings (whileHolds
      (do
        let value ← evaluate settings condition
        record settings (.loop value)
        return value.holds) (execute settings body) rounds)
      ⟨.evaluate condition [] (.loop condition body), []⟩ fun _ => ⟨.done, []⟩ := by
  have test : Follows settings (do
      let value ← evaluate settings condition
      record settings (.loop value)
      return value.holds) ⟨.evaluate condition [] (.loop condition body), []⟩
        fun holds => if holds then ⟨.execute body, [.again condition body]⟩ else ⟨.done, []⟩ := by
    refine (evaluate_follows condition [] (.loop condition body)).bind fun value => .step fun _ _ => ?_
    simp only [Move.config, Config.next, consume]
    cases value.holds <;> rfl
  -- A loop that runs out of rounds is unfinished, and no steps have to follow it there.
  induction rounds with
  | zero => exact fun _ _ ended => absurd rfl ended
  | succ rounds ih =>
    apply test.bind
    intro holds
    cases holds with
    | false => exact fun _ _ => .refl
    | true =>
      apply (follows.waiting (.again condition body) (fun same => nomatch same)).bind
      intro _
      exact .silent (fun _ _ => rfl) ih

private theorem block_follows {nodes : List Node}
    (follows : Follows settings (executeAll settings nodes) ⟨.done, [.rest nodes]⟩ fun _ => ⟨.done, []⟩) :
    Follows settings (do
      record settings (.execute (Node.block nodes).label)
      inScope (executeAll settings nodes)) ⟨.execute (.block nodes), []⟩ fun _ => ⟨.done, []⟩ := by
  intro tasks state
  have led := follows (.leave :: tasks) (state.record settings (.execute (Node.block nodes).label)).enterScope
  have recorded : (record settings (.execute (Node.block nodes).label) >>=
      fun _ => inScope (executeAll settings nodes)) state =
        inScope (executeAll settings nodes) (state.record settings (.execute (Node.block nodes).label)) := rfl
  rw [recorded]
  unfold inScope
  generalize executeAll settings nodes
    (state.record settings (.execute (Node.block nodes).label)).enterScope = result at led ⊢
  cases result with
  | ok a after =>
    exact .head rfl (Relation.ReflTransGen.tail led rfl)
  | error halt after =>
    exact fun ended => .head rfl (Relation.ReflTransGen.tail (led ended) rfl)

mutual

private theorem execute_follows : ∀ node : Node,
    Follows settings (execute settings node) ⟨.execute node, []⟩ fun _ => ⟨.done, []⟩
  | .expression body =>
    .entered rfl ((evaluate_follows body [] .discard).bind fun _ => .step fun _ _ => rfl)
  | .output body =>
    .entered rfl ((evaluate_follows body [] .output).bind fun _ => .step fun _ _ => rfl)
  | .declare name initial dataType => by
    by_cases bare : initial.isAbsent
    · refine .step fun tasks state => ?_
      simp only [Move.config, Config.next, enterStatement, enterBody, if_pos bare, execute, declare]
      rfl
    · have enters : enterBody settings (.declare name initial dataType) =
          pure ⟨.evaluate initial [] (.declare name dataType), []⟩ := if_neg bare
      have run : execute settings (.declare name initial dataType) = (do
          record settings (.execute (Node.declare name initial dataType).label)
          let value ← evaluate settings initial
          declareAs settings name dataType (some value)) := by
        simp only [execute, declare, if_neg bare, bind_map_left]
      rw [run]
      exact .entered enters ((evaluate_follows initial [] (.declare name dataType)).bind fun value =>
        .step fun _ _ => rfl)
  | .block nodes => block_follows (executeAll_follows nodes)
  | .input names => by
    have read : Follows settings (do
        record settings (.execute (Node.input names).label)
        readFields names) ⟨.execute (.input names), []⟩
          fun fields => ⟨.done, (fields.map (Task.fields names)).toList⟩ := by
      have enters : enterBody settings (.input names) = readFields names >>= fun fields =>
          pure ⟨.done, (fields.map (Task.fields names)).toList⟩ := by
        simp only [enterBody]
        congr 1
        funext fields
        cases fields <;> rfl
      refine .step fun tasks state => ?_
      simp only [Move.config, Config.next, enterStatement, enters, bind_assoc]
      rfl
    have run : execute settings (.input names) = (do
        record settings (.execute (Node.input names).label)
        readFields names) >>= fun fields => match fields with
          | some fields => inputFields settings names fields
          | none => return () := by
      unfold execute
      exact (bind_assoc _ _ _).symm
    rw [run]
    apply read.bind
    intro fields
    cases fields with
    | none => exact fun _ _ => .refl
    | some fields => exact inputFields_follows names fields
  | .branch condition thenBranch elseBranch => by
    refine .entered rfl ((evaluate_follows condition [] (.branch thenBranch elseBranch)).bind fun value => ?_)
    have chosen : Follows settings (record settings (.branch value))
        ⟨.value value [] (.branch thenBranch elseBranch), []⟩
        fun _ => if value.holds then ⟨.execute thenBranch, []⟩
          else if elseBranch.isAbsent then ⟨.done, []⟩ else ⟨.execute elseBranch, []⟩ := by
      refine .step fun tasks state => ?_
      simp only [Move.config, Config.next, consume]
      cases value.holds <;> cases elseBranch.isAbsent <;> rfl
    apply chosen.bind
    intro _
    split
    · exact execute_follows thenBranch
    · split
      · exact fun _ _ => .refl
      · exact execute_follows elseBranch
  | .loop condition body => .entered rfl (whileHolds_follows condition (execute_follows body) settings.rounds)
  | .absent | .list _ | .literal _ | .grouping _ | .unary _ _ | .binary _ _ _ | .logical _ _ _
  | .reference _ | .assign _ _ => .step fun _ _ => rfl
termination_by structural node => node

theorem executeAll_follows : ∀ nodes : List Node,
    Follows settings (executeAll settings nodes) ⟨.done, [.rest nodes]⟩ fun _ => ⟨.done, []⟩
  | [] => .step fun _ _ => rfl
  | first :: others => by
    have one := (execute_follows first).waiting (.rest others) (fun same => nomatch same)
    exact .silent (fun _ _ => rfl) (one.bind fun _ => executeAll_follows others)
termination_by structural nodes => nodes

end

end Statements

end Cfpl.Run
