import Cfpl.Proofs.Reading.Step

/-! Steps that are repeated, and steps that are taken up again behind a broken statement. Each round
takes a token, so a limit that covers the tokens left is never reached. -/

namespace Cfpl.Program

namespace Reader

variable {α : Type} {input : List Token}

inductive Separated (good : List Token → List Diagnostic → α → Prop) :
    List Token → List Diagnostic → List α → Prop where
  | done : Separated good [] [] []
  | more {comma : Token} {first rest : List Token} {new newer : List Diagnostic} {a : α}
      {as : List α} :
    comma.symbol = .comma → good first new a → Separated good rest newer as →
    Separated good (comma :: first ++ rest) (new ++ newer) (a :: as)

theorem does_afterCommas {step : Reader α} {good : List Token → List Diagnostic → α → Prop}
    (limit : Nat) (covered : input.length ≤ limit)
    (steps : DoesBelow input.length step fun taken new a _ => good taken new a) :
    Does (afterCommas step limit) input fun taken new as _ => Separated good taken new as := by
  induction limit generalizing input with
  | zero => exact does_none covered
  | succ limit ih =>
    unfold afterCommas
    apply (does_accept .comma).bind
    intro taken new found rest moved read
    obtain ⟨rfl, held⟩ := read
    cases found with
    | false =>
      obtain ⟨rfl, _⟩ := held
      exact .pure .done
    | true =>
      obtain ⟨comma, rfl, isComma⟩ := by simpa using held
      have shorter := moved.length_one
      apply (steps rest (by omega)).bind
      intro first new a left further read
      have shrunk := further.length
      apply (ih (by omega) (steps.shorter (by omega))).bind
      intro others newer as last _ separated
      refine .pure ?_
      simpa using Separated.more isComma read separated

theorem does_upTo {done : Reader Bool} {step : Reader (List α)}
    {good chain : List Token → List Diagnostic → List α → List Token → Prop} (limit : Nat)
    (covered : input.length ≤ limit)
    (decides : ∀ rest, Does done rest fun taken new finished left =>
      taken = [] ∧ new = [] ∧ if finished then chain [] [] [] left else ¬AtEnd left)
    (steps : ∀ rest, ¬AtEnd rest → rest.length ≤ input.length →
      Does step rest fun taken new as left => taken ≠ [] ∧ good taken new as left)
    (longer : ∀ first new as middle, first ≠ [] → good first new as middle →
      ∀ more newer others left, Taken middle more left → chain more newer others left →
      chain (first ++ more) (new ++ newer) (as ++ others) left) :
    Does (upTo done step limit) input chain := by
  -- A step that goes on takes a token, so the limit for what is left may be one less.
  induction limit generalizing input with
  | zero => exact does_none covered
  | succ limit ih =>
    unfold upTo
    apply (decides input).bind
    intro taken new found rest moved read
    obtain ⟨rfl, rfl, held⟩ := read
    cases found with
    | false =>
      obtain rfl : input = rest := moved.split
      apply (steps input (by simpa using held) (Nat.le_refl _)).bind
      intro first new as middle further read
      obtain ⟨some_, read⟩ := read
      have shrunk := further.length
      have positive := List.length_pos_iff.mpr some_
      apply (ih (by omega) fun more opened less => steps more opened (by omega)).bind
      intro more newer others left following chained
      refine .pure ?_
      simpa using longer _ _ _ _ some_ read _ _ _ _ following chained
    | true =>
      exact .pure (by simpa using held)

private theorem settle_taken (skipped : Token) (tokens : List Token) :
    (∃ taken rest, settle skipped tokens = some rest ∧ Taken tokens taken rest) ∨
      settle skipped tokens = none ∧ Inside tokens := by
  induction tokens generalizing skipped with
  | nil => exact .inr ⟨rfl, List.forall_mem_nil _⟩
  | cons token tokens ih =>
    unfold settle
    split
    · exact .inl ⟨[], _, rfl, .none _⟩
    · have opened : token.symbol ≠ .endOfText := by simp_all
      rcases ih token with ⟨taken, rest, settled, moved⟩ | ⟨settled, inside⟩
      · exact .inl ⟨token :: taken, rest, settled, (Taken.one opened).trans moved⟩
      · exact .inr ⟨settled, (Taken.one opened).inside_input inside⟩

theorem skipBroken_taken (tokens : List Token) :
    (∃ taken rest, skipBroken tokens = some rest ∧ Taken tokens taken rest ∧
      (¬AtEnd tokens → taken ≠ [])) ∨ skipBroken tokens = none ∧ Inside tokens := by
  cases tokens with
  | nil => exact .inr ⟨rfl, List.forall_mem_nil _⟩
  | cons token tokens =>
    by_cases finished : token.symbol = .endOfText
    · refine .inl ⟨[], _, if_pos finished, .none _, ?_⟩
      exact fun opened => absurd ⟨token, rfl, finished⟩ opened
    · have same : skipBroken (token :: tokens) = settle token tokens := if_neg finished
      rw [same]
      rcases settle_taken token tokens with ⟨taken, rest, settled, moved⟩ | ⟨settled, inside⟩
      · refine .inl ⟨token :: taken, rest, settled, (Taken.one finished).trans moved, ?_⟩
        exact fun _ => List.cons_ne_nil _ _
      · exact .inr ⟨settled, (Taken.one finished).inside_input inside⟩

theorem does_recovering {step : Reader (List α)}
    {holds : List Token → List Diagnostic → List α → List Token → Prop}
    (does : Does step input holds) :
    Does (recovering step) input fun taken new as rest => holds taken new as rest ∨
      as = [] ∧ new ≠ [] ∧ (¬AtEnd input → taken ≠ []) := by
  intro reports
  have known := does reports
  unfold recovering
  generalize step ⟨input, reports⟩ = result at known ⊢
  cases known with
  | given moved held => exact .given moved (.inl held)
  | exhausted inside => exact .exhausted inside
  | @refused taken rest new moved reported =>
    rcases skipBroken_taken rest with ⟨skipped, left, found, further, progress⟩ | ⟨found, inside⟩
    · simp only [found]
      refine .given (moved.trans further) (.inr ⟨rfl, reported, fun opened none => ?_⟩)
      obtain ⟨rfl, rfl⟩ := List.append_eq_nil_iff.mp none
      exact progress (by rwa [← show input = rest from moved.split]) rfl
    · simp only [found]
      exact .exhausted (moved.inside_input inside)

def Steady (step : Reader α) : Prop := ∀ position after, step position ≠ .error .broken after

theorem Steady.bind {β : Type} {step : Reader α} {next : α → Reader β} (steady : Steady step)
    (continues : ∀ a, Steady (next a)) : Steady (step >>= next) := by
  intro position after broken
  rw [bind_eq] at broken
  split at broken
  · exact continues _ _ _ broken
  · next trouble =>
    cases broken
    exact steady _ _ trouble

theorem Steady.pure (a : α) : Steady (Pure.pure a : Reader α) := fun _ _ broken => nomatch broken

theorem steady_atEnd : Steady atEnd := by
  refine .bind ?_ fun token => .pure _
  intro position after broken
  unfold peek at broken
  split at broken <;> cases broken

theorem steady_recovering (step : Reader (List α)) : Steady (recovering step) := by
  intro position after broken
  unfold recovering at broken
  split at broken
  · split at broken <;> cases broken
  · next apart => exact apart _ broken

theorem steady_upTo {done : Reader Bool} {step : Reader (List α)} (decides : Steady done)
    (steps : Steady step) (limit : Nat) : Steady (upTo done step limit) := by
  induction limit with
  | zero => exact fun _ _ broken => nomatch broken
  | succ limit ih =>
    unfold upTo
    apply decides.bind
    intro finished
    split
    · exact .pure []
    · exact steps.bind fun first => ih.bind fun others => .pure _

end Reader

end Cfpl.Program
