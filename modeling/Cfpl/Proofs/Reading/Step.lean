import Cfpl.Program.Reader

/-! What a step of reading does to the tokens before it. It takes some, none of which ends the text, and
gives a result, or it fails and has reported why, or it comes to the end of a row in which nothing ends the
text. Reports are only ever added, so a reading without any had none on the way. -/

namespace Cfpl.Program

def Inside (tokens : List Token) : Prop := ∀ token ∈ tokens, token.symbol ≠ .endOfText

def Ends (tokens : List Token) : Prop := ∃ token ∈ tokens, token.symbol = .endOfText

def AtEnd (tokens : List Token) : Prop :=
  ∃ token ∈ tokens.head?, token.symbol = .endOfText

structure Taken (input taken rest : List Token) : Prop where
  split : input = taken ++ rest
  inside : Inside taken

namespace Taken

variable {input middle rest first second : List Token}

theorem none (input : List Token) : Taken input [] input :=
  ⟨rfl, List.forall_mem_nil _⟩

theorem trans (before : Taken input first middle) (after : Taken middle second rest) :
    Taken input (first ++ second) rest := by
  refine ⟨by rw [before.split, after.split, List.append_assoc], ?_⟩
  intro token member
  rcases List.mem_append.mp member with early | late
  · exact before.inside token early
  · exact after.inside token late

theorem one {token : Token} (open_ : token.symbol ≠ .endOfText) : Taken (token :: rest) [token] rest := by
  refine ⟨rfl, ?_⟩
  intro other member
  rw [List.mem_singleton.mp member]
  exact open_

theorem inside_input (moved : Taken input first rest) (open_ : Inside rest) : Inside input := by
  intro token member
  rw [moved.split] at member
  rcases List.mem_append.mp member with early | late
  · exact moved.inside token early
  · exact open_ token late

theorem length (moved : Taken input first rest) : input.length = first.length + rest.length := by
  rw [moved.split, List.length_append]

theorem length_one {token : Token} (moved : Taken input [token] rest) :
    input.length = 1 + rest.length := by
  rw [moved.length, List.length_singleton]

theorem eq_nil_of_atEnd (moved : Taken input first rest) (finished : AtEnd input) : first = [] := by
  obtain ⟨token, found, last⟩ := finished
  cases first with
  | nil => rfl
  | cons head tail =>
    rw [moved.split] at found
    cases found
    exact absurd last (moved.inside token (.head _))

end Taken

theorem Inside.not_ends {tokens : List Token} (inside : Inside tokens) : ¬Ends tokens := by
  intro ends
  obtain ⟨token, member, last⟩ := ends
  exact inside token member last

namespace Reader

variable {α β : Type} {input : List Token}

/-- How a step ends that started on the given tokens after the given reports. It ends for lack of tokens
only where none of them ends the text. -/
inductive Outcome (input : List Token) (reports : List Diagnostic)
    (holds : List Token → List Diagnostic → α → List Token → Prop) :
    EStateM.Result Trouble Position α → Prop where
  | given {taken rest : List Token} {new : List Diagnostic} {a : α} :
    Taken input taken rest → holds taken new a rest →
    Outcome input reports holds (.ok a ⟨rest, reports ++ new⟩)
  | refused {taken rest : List Token} {new : List Diagnostic} :
    Taken input taken rest → new ≠ [] →
    Outcome input reports holds (.error .broken ⟨rest, reports ++ new⟩)
  | exhausted {new : List Diagnostic} :
    Inside input → Outcome input reports holds (.error .exhausted ⟨[], reports ++ new⟩)

/-- On the given tokens a step runs out of them, or it is broken and has reported something, or what it
takes, what it reports, its result and the rest are as stated. -/
def Does (step : Reader α) (input : List Token)
    (holds : List Token → List Diagnostic → α → List Token → Prop) : Prop :=
  ∀ reports, Outcome input reports holds (step ⟨input, reports⟩)

def DoesBelow (size : Nat) (step : Reader α)
    (holds : List Token → List Diagnostic → α → List Token → Prop) : Prop :=
  ∀ input, input.length < size → Does step input holds

variable {holds wanted : List Token → List Diagnostic → α → List Token → Prop}

theorem DoesBelow.shorter {size less : Nat} {step : Reader α} (does : DoesBelow size step holds)
    (bound : less ≤ size) : DoesBelow less step holds :=
  fun input shorter => does input (Nat.lt_of_lt_of_le shorter bound)

private theorem Outcome.atNothing {reports : List Diagnostic} :
    Outcome [] reports holds (.error .exhausted ⟨[], reports⟩) := by
  have ended : Outcome [] reports holds (.error .exhausted ⟨[], reports ++ []⟩) :=
    .exhausted (List.forall_mem_nil _)
  rwa [List.append_nil] at ended

/-- A limit that covers the tokens runs out only where they do. -/
theorem does_none (covered : input.length ≤ 0) : Does (throw .exhausted) input holds := by
  obtain rfl : input = [] := List.length_eq_zero_iff.mp (Nat.le_zero.mp covered)
  exact fun reports => .atNothing

theorem Does.mono {step : Reader α} (does : Does step input holds)
    (weaker : ∀ taken new a rest, Taken input taken rest → holds taken new a rest →
      wanted taken new a rest) : Does step input wanted := by
  intro reports
  have known := does reports
  generalize step ⟨input, reports⟩ = result at known ⊢
  cases known with
  | given moved held => exact .given moved (weaker _ _ _ _ moved held)
  | refused moved reported => exact .refused moved reported
  | exhausted inside => exact .exhausted inside

theorem bind_eq (step : Reader α) (next : α → Reader β) (position : Position) :
    (step >>= next) position = match step position with
      | .ok a after => next a after
      | .error trouble after => .error trouble after := by
  change EStateM.bind step next position = _
  unfold EStateM.bind
  cases step position <;> rfl

theorem bind_of_ok {step : Reader α} {a : α} {position after : Position}
    (read : step position = .ok a after) (next : α → Reader β) : (step >>= next) position = next a after := by
  rw [bind_eq, read]

theorem bind_at {step other : Reader α} {position moved : Position} (same : step position = other moved)
    (next : α → Reader β) : (step >>= next) position = (other >>= next) moved := by
  rw [bind_eq, bind_eq, same]

theorem Does.bind {step : Reader α} {next : α → Reader β}
    {wanted : List Token → List Diagnostic → β → List Token → Prop} (does : Does step input holds)
    (continues : ∀ taken new a rest, Taken input taken rest → holds taken new a rest →
      Does (next a) rest fun more newer b left => wanted (taken ++ more) (new ++ newer) b left) :
    Does (step >>= next) input wanted := by
  intro reports
  have known := does reports
  rw [bind_eq]
  generalize step ⟨input, reports⟩ = result at known ⊢
  cases known with
  | refused moved reported => exact .refused moved reported
  | exhausted inside => exact .exhausted inside
  | @given taken middle new a moved held =>
    have following := continues taken new a middle moved held (reports ++ new)
    dsimp only
    generalize next a ⟨middle, reports ++ new⟩ = result at following ⊢
    cases following with
    | given further reached =>
      rw [List.append_assoc]
      exact .given (moved.trans further) reached
    | refused further reported =>
      rw [List.append_assoc]
      exact .refused (moved.trans further) fun none => reported (List.append_eq_nil_iff.mp none).2
    | exhausted inside =>
      rw [List.append_assoc]
      exact .exhausted (moved.inside_input inside)

theorem Outcome.silent {reports : List Diagnostic} {taken rest : List Token} {a : α}
    (moved : Taken input taken rest) (held : holds taken [] a rest) :
    Outcome input reports holds (.ok a ⟨rest, reports⟩) := by
  have ended : Outcome input reports holds (.ok a ⟨rest, reports ++ []⟩) := .given moved held
  rwa [List.append_nil] at ended

theorem Does.pure {a : α} (held : holds [] [] a input) :
    Does (Pure.pure a : Reader α) input holds :=
  fun _ => .silent (.none input) held

theorem does_report (diagnostic : Diagnostic) :
    Does (report diagnostic) input fun taken new _ _ => taken = [] ∧ new = [diagnostic] :=
  fun _ => .given (.none input) ⟨rfl, rfl⟩

private theorem does_peek : Does peek input fun taken new token rest =>
    taken = [] ∧ new = [] ∧ rest.head? = some token := by
  intro reports
  cases input with
  | nil => exact .atNothing
  | cons token rest => exact .silent (.none _) ⟨rfl, rfl, rfl⟩

theorem does_atEnd : Does atEnd input fun taken new finished rest =>
    taken = [] ∧ new = [] ∧ (finished ↔ AtEnd rest) := by
  apply does_peek.bind
  intro taken new token rest moved read
  obtain ⟨rfl, rfl, found⟩ := read
  refine .pure ⟨rfl, rfl, ?_⟩
  simp [AtEnd, found]

theorem does_at? (symbol : Symbol) : Does (at? symbol) input fun taken new here rest =>
    taken = [] ∧ new = [] ∧ (here → ∃ token ∈ rest.head?, token.symbol = symbol) := by
  apply does_peek.bind
  intro taken new token rest moved read
  obtain ⟨rfl, rfl, found⟩ := read
  refine .pure ⟨rfl, rfl, ?_⟩
  simp only [Bool.and_eq_true, decide_eq_true_eq]
  intro read
  obtain ⟨_, same⟩ := read
  exact ⟨token, found, same⟩

theorem does_take? (accepts : Symbol → Bool) :
    Does (take? accepts) input fun taken new found rest => new = [] ∧ match found with
      | some token => taken = [token] ∧ accepts token.symbol
      | none => taken = [] ∧ ∀ token ∈ rest.head?, accepts token.symbol → token.symbol = .endOfText := by
  intro reports
  cases input with
  | nil => exact .atNothing
  | cons token rest =>
    by_cases accepted : token.symbol ≠ .endOfText && accepts token.symbol
    · simp only [take?, if_pos accepted]
      rw [Bool.and_eq_true, decide_eq_true_eq] at accepted
      exact .silent (.one accepted.1) ⟨rfl, rfl, accepted.2⟩
    · simp only [take?, if_neg accepted]
      refine .silent (.none _) ⟨rfl, rfl, ?_⟩
      intro _ same wanted
      cases same
      simpa [wanted] using accepted

theorem does_accept (symbol : Symbol) : Does (accept symbol) input fun taken new found rest =>
    new = [] ∧ if found then ∃ token, taken = [token] ∧ token.symbol = symbol
      else taken = [] ∧ ∀ token ∈ rest.head?, token.symbol = symbol → token.symbol = .endOfText := by
  apply (does_take? _).bind
  intro taken new found rest moved read
  obtain ⟨rfl, held⟩ := read
  cases found with
  | none =>
    exact .pure ⟨rfl, by simpa using held⟩
  | some token =>
    exact .pure ⟨rfl, by simpa using ⟨token, held.1, of_decide_eq_true held.2⟩⟩

private theorem does_refuse (message : String) : Does (refuse message : Reader α) input holds := by
  intro reports
  cases input with
  | nil => exact .atNothing
  | cons token rest => exact .refused (.none _) (List.cons_ne_nil _ _)

theorem does_expectAny (accepts : Symbol → Bool) (message : String) :
    Does (expectAny accepts message) input fun taken new token _ =>
      taken = [token] ∧ new = [] ∧ accepts token.symbol := by
  apply (does_take? accepts).bind
  intro taken new found rest moved read
  obtain ⟨rfl, held⟩ := read
  cases found with
  | none =>
    exact does_refuse message
  | some token =>
    exact .pure ⟨by rw [held.1]; rfl, rfl, held.2⟩

theorem does_expect (symbol : Symbol) (message : String) :
    Does (expect symbol message) input fun taken new token _ =>
      taken = [token] ∧ new = [] ∧ token.symbol = symbol := by
  apply (does_expectAny _ message).mono
  intro taken new token rest moved read
  obtain ⟨one, none, accepted⟩ := read
  exact ⟨one, none, of_decide_eq_true accepted⟩

theorem does_endLine (message : String) : Does (endLine message) input fun taken new _ rest =>
    new = [] ∧ ((∃ newline, taken = [newline] ∧ newline.symbol = .newline) ∨
      taken = [] ∧ AtEnd rest) := by
  apply (does_accept .newline).bind
  intro taken new found rest moved read
  obtain ⟨rfl, held⟩ := read
  cases found with
  | false =>
    obtain ⟨rfl, _⟩ := held
    apply does_atEnd.bind
    intro taken new found rest further read
    obtain ⟨rfl, rfl, finished⟩ := read
    cases found with
    | false =>
      exact does_refuse message
    | true =>
      exact .pure ⟨rfl, .inr ⟨rfl, finished.mp rfl⟩⟩
  | true =>
    exact .pure ⟨rfl, .inl (by simpa using held)⟩

end Reader

end Cfpl.Program
