import Cfpl.Token

/-! Scopes, and the row of those that are in effect at a place of a program, from the innermost outward. The variables
of a scope are kept in the order of their names, so two scopes with the same variables are equal. A name means the
nearest variable that has it. -/

namespace Cfpl

structure Frame where
  bindings : List (String × Value)
  ordered : bindings.Pairwise fun earlier later => earlier.1 < later.1

namespace Frame

def empty : Frame := ⟨[], .nil⟩

def get? (frame : Frame) (name : String) : Option Value := frame.bindings.lookup name

def put (name : String) (value : Value) : List (String × Value) → List (String × Value)
  | [] => [(name, value)]
  | (other, old) :: rest =>
    if name = other then (name, value) :: rest
    else if name < other then (name, value) :: (other, old) :: rest
    else (other, old) :: put name value rest

theorem mem_put {name : String} {value : Value} {bindings : List (String × Value)}
    {binding : String × Value} (member : binding ∈ put name value bindings) :
    binding = (name, value) ∨ binding ∈ bindings := by
  induction bindings with
  | nil => simpa [put] using member
  | cons first rest ih =>
    obtain ⟨other, old⟩ := first
    unfold put at member
    split at member
    · grind
    · split at member
      · grind
      · rcases List.mem_cons.mp member with rfl | inRest
        · exact .inr (.head _)
        · exact (ih inRest).imp_right (.tail _)

theorem ordered_put (name : String) (value : Value) {bindings : List (String × Value)}
    (ordered : bindings.Pairwise fun earlier later => earlier.1 < later.1) :
    (put name value bindings).Pairwise fun earlier later => earlier.1 < later.1 := by
  induction bindings with
  | nil => simp [put]
  | cons first rest ih =>
    obtain ⟨other, old⟩ := first
    obtain ⟨least, restOrdered⟩ := List.pairwise_cons.mp ordered
    unfold put
    split
    · subst name
      exact .cons least restOrdered
    · split
      · refine .cons (fun binding member => ?_) ordered
        rcases List.mem_cons.mp member with rfl | inRest
        · assumption
        · have := least binding inRest
          grind
      · refine .cons (fun binding member => ?_) (ih restOrdered)
        rcases mem_put member with rfl | inRest
        · grind
        · exact least binding inRest

theorem lookup_put (name asked : String) (value : Value) (bindings : List (String × Value)) :
    (put name value bindings).lookup asked =
      if asked = name then some value else bindings.lookup asked := by
  induction bindings with
  | nil =>
    by_cases same : asked = name
    · simp [put, same]
    · simp [put, List.lookup_cons, same, beq_eq_false_iff_ne.mpr same]
  | cons first rest ih =>
    obtain ⟨other, old⟩ := first
    unfold put
    split
    · subst name
      by_cases same : asked = other
      · simp [same]
      · simp [List.lookup_cons, same, beq_eq_false_iff_ne.mpr same]
    · split
      · by_cases same : asked = name
        · simp [same]
        · simp [List.lookup_cons, same, beq_eq_false_iff_ne.mpr same]
      · by_cases here : asked = other
        · subst here
          have apart : asked ≠ name := fun same => by simp_all
          simp [apart]
        · simp [List.lookup_cons, beq_eq_false_iff_ne.mpr here, ih]

def define (frame : Frame) (name : String) (value : Value) : Frame :=
  ⟨put name value frame.bindings, ordered_put name value frame.ordered⟩

theorem get?_define (frame : Frame) (name asked : String) (value : Value) :
    (frame.define name value).get? asked =
      if asked = name then some value else frame.get? asked :=
  lookup_put name asked value frame.bindings

/-- A variable keeps its kind; one that holds nothing takes a value of any kind. -/
def admits (current value : Value) : Bool :=
  current.kind = .absent || current.kind = value.kind

def assign? (frame : Frame) (name : String) (value : Value) : Option (Except Fault Frame) :=
  (frame.get? name).map fun current =>
    if admits current value then .ok (frame.define name value)
    else .error (.kindMismatch name current.kind value.kind)

end Frame

structure Scopes where
  inner : Frame
  outer : List Frame

namespace Scopes

def single (frame : Frame) : Scopes := ⟨frame, []⟩

def frames (scopes : Scopes) : List Frame := scopes.inner :: scopes.outer

def globals (scopes : Scopes) : Frame := scopes.outer.getLast?.getD scopes.inner

def get? (scopes : Scopes) (name : String) : Option Value :=
  scopes.frames.findSome? fun frame => frame.get? name

def define (scopes : Scopes) (name : String) (value : Value) : Scopes :=
  { scopes with inner := scopes.inner.define name value }

def assignAmong (name : String) (value : Value) : List Frame → Except Fault (List Frame)
  | [] => .error (.undefinedVariable name)
  | frame :: rest => match frame.assign? name value with
    | some result => result.map (· :: rest)
    | none => (assignAmong name value rest).map (frame :: ·)

def assign (scopes : Scopes) (name : String) (value : Value) : Except Fault Scopes :=
  match scopes.inner.assign? name value with
  | some result => result.map fun frame => { scopes with inner := frame }
  | none => (assignAmong name value scopes.outer).map fun outer => { scopes with outer := outer }

theorem assignAmong_frames (scopes : Scopes) (name : String) (value : Value) :
    assignAmong name value scopes.frames = (scopes.assign name value).map frames := by
  rw [frames, assignAmong, assign]
  cases scopes.inner.assign? name value with
  | some result => cases result <;> rfl
  | none => cases assignAmong name value scopes.outer <;> rfl

def enter (scopes : Scopes) : Scopes := ⟨.empty, scopes.frames⟩

def leave (scopes : Scopes) : Scopes :=
  match scopes.outer with
  | [] => scopes
  | frame :: outer => ⟨frame, outer⟩

end Scopes

end Cfpl
