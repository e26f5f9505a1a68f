import Mathlib.Data.List.DropRight
import Cfpl.Proofs.Run.Entry

/-! Input lines and the lists of fields that they stand for. To cut a text at its commas undoes joining with them,
and how many empty fields are dropped at the end is told by the commas that are left there. So a list of fields
reaches the variables of an input as it is, if the last one is not empty. -/

namespace Cfpl.Text

variable {mark : Char} {text : List Char}

private theorem split_eq_splitOn (mark : Char) (text : List Char) : split mark text = text.splitOn mark := by
  induction text with
  | nil => rfl
  | cons c rest ih =>
    rw [split, List.splitOn_cons_eq_if_modifyHead, ih]
    by_cases same : c = mark
    · rw [if_pos same, if_pos (beq_iff_eq.mpr same)]
    · rw [if_neg same, if_neg (mt eq_of_beq same)]
      cases parted : rest.splitOn mark with
      | nil => exact (List.splitOn_ne_nil _ _ parted).elim
      | cons part parts => rfl

private theorem clean_split (mark : Char) (text : List Char) : ∀ part ∈ split mark text, mark ∉ part := by
  induction text with
  | nil => exact List.forall_mem_singleton.mpr List.not_mem_nil
  | cons c rest ih =>
    unfold split
    split
    · exact List.forall_mem_cons.mpr ⟨List.not_mem_nil, ih⟩
    · next other =>
      split
      · next none => exact absurd none (split_ne_nil mark rest)
      · next part parts parted =>
        rw [parted] at ih
        obtain ⟨first, others⟩ := List.forall_mem_cons.mp ih
        exact List.forall_mem_cons.mpr ⟨List.not_mem_cons_of_ne_of_not_mem (Ne.symm other) first, others⟩

private theorem split_eq_iff {parts : List (List Char)} :
    split mark text = parts ↔
      parts ≠ [] ∧ (∀ part ∈ parts, mark ∉ part) ∧ [mark].intercalate parts = text := by
  constructor
  · rintro rfl
    refine ⟨split_ne_nil mark text, clean_split mark text, ?_⟩
    rw [split_eq_splitOn]
    exact List.intercalate_splitOn mark
  · rintro ⟨some_, clean, rfl⟩
    rw [split_eq_splitOn]
    exact List.splitOn_intercalate mark clean some_

end Cfpl.Text

namespace Cfpl.Field

section Ends

variable {α : Type} {row parts : List (List α)}

private theorem rdropWhile_isEmpty_eq_self : parts.rdropWhile List.isEmpty = parts ↔ parts.getLast? ≠ some [] := by
  rw [List.rdropWhile_eq_self_iff]
  rcases List.eq_nil_or_concat' parts with rfl | ⟨front, last, rfl⟩
  · simp
  · simp

private theorem rdropWhile_isEmpty_eq_iff :
    row.rdropWhile List.isEmpty = parts ↔
      parts.getLast? ≠ some [] ∧ ∃ count, row = parts ++ .replicate count [] := by
  constructor
  · rintro rfl
    refine ⟨rdropWhile_isEmpty_eq_self.mp (List.rdropWhile_idempotent _ row),
      (row.rtakeWhile List.isEmpty).length, ?_⟩
    have empty : ∀ part ∈ row.rtakeWhile List.isEmpty, part = [] :=
      fun part dropped => List.isEmpty_iff.mp (List.mem_rtakeWhile_imp dropped)
    rw [← List.eq_replicate_of_mem empty, List.rdropWhile_append_rtakeWhile]
  · rintro ⟨last, count, rfl⟩
    -- The empty parts are dropped one by one from the end, until the last of the others stops that.
    induction count with
    | zero =>
      rw [List.replicate_zero, List.append_nil]
      exact rdropWhile_isEmpty_eq_self.mpr last
    | succ count ih =>
      rw [List.replicate_succ', ← List.append_assoc, List.rdropWhile_concat_pos _ _ _ rfl]
      exact ih

end Ends

variable {line : String} {fields : List String}

private theorem intercalate_empty_behind (some_ : fields ≠ []) (count : Nat) :
    ",".intercalate (fields ++ .replicate count "") =
      ",".intercalate fields ++ .ofList (.replicate count ',') := by
  induction count with
  | zero => simp
  | succ count ih =>
    have still : fields ++ .replicate count "" ≠ [] := List.append_ne_nil_of_left_ne_nil some_ _
    calc ",".intercalate (fields ++ .replicate (count + 1) "")
      _ = ",".intercalate (fields ++ .replicate count "") ++ "," := by
        rw [List.replicate_succ', ← List.append_assoc,
          String.intercalate_append_of_ne_nil still (List.cons_ne_nil _ _), String.intercalate_singleton,
          String.append_empty]
      _ = ",".intercalate fields ++ (.ofList (.replicate count ',') ++ ",") := by
        rw [ih, String.append_assoc]
      _ = ",".intercalate fields ++ .ofList (.replicate (count + 1) ',') := by
        rw [List.replicate_succ', String.ofList_append]

private theorem intercalate_empty (count : Nat) :
    ",".intercalate (.replicate (count + 1) "") = .ofList (.replicate count ',') :=
  intercalate_empty_behind (List.cons_ne_nil "" []) count

private theorem split_of_ne_empty (some_ : line ≠ "") :
    split line = ((Text.split ',' line.toList).rdropWhile List.isEmpty).map String.ofList := by
  unfold split
  dsimp only
  rw [if_neg (mt String.isEmpty_iff.mp some_)]
  rfl

private theorem map_ofList_eq_iff {parts : List (List Char)} :
    parts.map String.ofList = fields ↔ parts = fields.map String.toList := by
  constructor
  · rintro rfl
    simp
  · rintro rfl
    simp

private theorem split_eq_iff (some_ : line ≠ "") :
    split line = fields ↔ (∀ field ∈ fields, ',' ∉ field.toList) ∧ fields.getLast? ≠ some "" ∧
      ∃ count, fields ++ .replicate count "" ≠ [] ∧
        ",".intercalate (fields ++ .replicate count "") = line := by
  have last : (fields.map String.toList).getLast? ≠ some [] ↔ fields.getLast? ≠ some "" := by simp
  have joined (count : Nat) : Text.split ',' line.toList = fields.map String.toList ++ .replicate count [] ↔
      fields ++ .replicate count "" ≠ [] ∧ (∀ field ∈ fields, ',' ∉ field.toList) ∧
        ",".intercalate (fields ++ .replicate count "") = line := by
    have padded : fields.map String.toList ++ .replicate count [] =
        (fields ++ .replicate count "").map String.toList := by simp
    rw [padded, Text.split_eq_iff, ← String.toList_inj, String.toList_intercalate]
    simp [or_imp, forall_and]
  rw [split_of_ne_empty some_, map_ofList_eq_iff, rdropWhile_isEmpty_eq_iff, last]
  simp only [joined]
  constructor
  · rintro ⟨last, count, nonempty, clean, same⟩
    exact ⟨clean, last, count, nonempty, same⟩
  · rintro ⟨clean, last, count, nonempty, same⟩
    exact ⟨last, count, nonempty, clean, same⟩

private theorem joined_iff_spelled (some_ : line ≠ "") :
    (∃ count, fields ++ .replicate count "" ≠ [] ∧
        ",".intercalate (fields ++ .replicate count "") = line) ↔
      ∃ commas, (fields = [] → 1 ≤ commas) ∧
        line = ",".intercalate fields ++ .ofList (.replicate commas ',') := by
  rcases eq_or_ne fields [] with rfl | several
  · constructor
    · rintro ⟨_ | commas, nonempty, joined⟩
      · exact absurd rfl nonempty
      · have spelled : line = .ofList (.replicate commas ',') := joined.symm.trans (intercalate_empty commas)
        refine ⟨commas, fun _ => Nat.one_le_iff_ne_zero.mpr ?_, spelled⟩
        rintro rfl
        exact some_ spelled
    · rintro ⟨commas, -, spelled⟩
      exact ⟨commas + 1, List.cons_ne_nil _ _, (intercalate_empty commas).trans spelled.symm⟩
  · constructor
    · rintro ⟨count, -, joined⟩
      exact ⟨count, (absurd · several), joined.symm.trans (intercalate_empty_behind several count)⟩
    · rintro ⟨commas, -, spelled⟩
      exact ⟨commas, List.append_ne_nil_of_left_ne_nil several _,
        (intercalate_empty_behind several commas).trans spelled.symm⟩

private theorem divides_iff (some_ : line ≠ "") : Divides line fields ↔ fields = split line := by
  rw [eq_comm, split_eq_iff some_, joined_iff_spelled some_]
  exact ⟨fun divides => ⟨divides.clean, divides.last, divides.spelled⟩,
    fun ⟨clean, last, spelled⟩ => ⟨clean, last, spelled⟩⟩

private theorem intercalate_ne_empty (some_ : fields ≠ []) (last : fields.getLast? ≠ some "") :
    ",".intercalate fields ≠ "" := by
  obtain rfl | ⟨front, field, rfl⟩ := List.eq_nil_or_concat' fields
  · exact absurd rfl some_
  · have shown : field ≠ "" := by
      rintro rfl
      exact last List.getLast?_concat
    rcases eq_or_ne front [] with rfl | several
    · rwa [List.nil_append, String.intercalate_singleton]
    · rw [String.intercalate_append_of_ne_nil several (List.cons_ne_nil _ _), String.intercalate_singleton]
      exact fun empty => shown (String.append_eq_empty_iff.mp empty).2

private theorem split_intercalate (some_ : fields ≠ []) (clean : ∀ field ∈ fields, ',' ∉ field.toList)
    (last : fields.getLast? ≠ some "") : split (",".intercalate fields) = fields := by
  have spelled : ",".intercalate fields = ",".intercalate fields ++ .ofList (.replicate 0 ',') :=
    String.append_empty.symm
  exact ((divides_iff (intercalate_ne_empty some_ last)).mp
    ⟨clean, last, 0, (absurd · some_), spelled⟩).symm

end Cfpl.Field

namespace Cfpl.Run

variable {settings : Settings} {state : State} {names : List Token}

private theorem nextFields_record (settings : Settings) (entry : TraceEntry) (state : State) :
    (state.record settings entry).nextFields = state.nextFields := by
  unfold State.nextFields
  rw [record_pending]

private theorem execute_input (paired : state.nextFields.length = names.length) :
    execute settings (.input names) state = inputFields settings names state.nextFields
      (state.record settings (.execute (Node.input names).label)).lineRead := by
  let recorded := state.record settings (.execute (Node.input names).label)
  have same : recorded.nextFields = state.nextFields := nextFields_record ..
  have started : execute settings (.input names) state = input settings names recorded := by
    unfold execute
    rw [run_bind]
    rfl
  rw [← same] at paired
  rw [started, ← same]
  unfold input
  rw [run_bind, readFields_paired paired]

/-- A line that is not empty stands for one list of fields, and that is the one it is cut into; the empty line is
one empty field. So texts without commas, of which the last is not empty, reach the variables of an input
unchanged on the line that joins them. -/
theorem fields_of_line :
    (∀ line fields, line ≠ "" → (Field.Divides line fields ↔ fields = Field.split line)) ∧
    Field.split "" = [""] ∧
    ∀ texts : List String, texts ≠ [] → (∀ text ∈ texts, ',' ∉ text.toList) → texts.getLast? ≠ some "" →
      Field.split (",".intercalate texts) = texts ∧
      ∀ (settings : Settings) (names : List Token) (state : State) (more : List String),
        names.length = texts.length → state.pending = ",".intercalate texts :: more →
        execute settings (.input names) state = inputFields settings names texts
          (state.record settings (.execute (Node.input names).label)).lineRead ∧
        ((∀ name ∈ names, (state.scopes.get? name.lexeme).isSome) →
          ∃ after reports, execute settings (.input names) state = .ok () after ∧ after.pending = more ∧
            EnteredAll names texts state.scopes after.scopes reports) := by
  refine ⟨fun line fields some_ => Field.divides_iff some_, rfl, fun texts some_ clean last => ?_⟩
  have whole : Field.split (",".intercalate texts) = texts := Field.split_intercalate some_ clean last
  refine ⟨whole, fun settings names state more count written => ?_⟩
  have found : state.nextFields = texts := by
    unfold State.nextFields
    rw [written]
    exact whole
  let recorded := state.record settings (.execute (Node.input names).label)
  have delivered : execute settings (.input names) state = inputFields settings names texts recorded.lineRead := by
    rw [execute_input (by rw [found, count]), found]
  refine ⟨delivered, fun defined => ?_⟩
  have scopes : recorded.lineRead.scopes = state.scopes := record_scopes settings _ state
  have unread : recorded.lineRead.pending = more :=
    congrArg (List.drop 1) ((record_pending settings _ state).trans written)
  obtain ⟨after, reports, ran, left, _, entered⟩ :=
    @inputFields_settles settings recorded.lineRead names texts count.symm (by rwa [scopes])
  rw [scopes] at entered
  exact ⟨after, reports, delivered.trans ran, left.trans unread, entered⟩

def beforeGaps : State := { beforeEntry with pending := [",7,,x", "end"] }

theorem fields_of_gaps :
    Field.Divides ",7,,x,," ["", "7", "", "x"] ∧ Field.Divides ",,," [] ∧
      Field.split ",7,,x" = ["", "7", "", "x"] ∧
      execute ⟨0, 10⟩ (.input entryNames) beforeGaps =
        inputFields ⟨0, 10⟩ entryNames ["", "7", "", "x"] beforeGaps.lineRead ∧
      ∃ after reports, execute ⟨0, 10⟩ (.input entryNames) beforeGaps = .ok () after ∧
        after.pending = ["end"] ∧
        EnteredAll entryNames ["", "7", "", "x"] beforeGaps.scopes after.scopes reports := by
  obtain ⟨divided, _, joined⟩ := fields_of_line
  obtain ⟨whole, reached⟩ := joined ["", "7", "", "x"] (by decide) (by decide) (by decide)
  obtain ⟨same, delivered⟩ := reached ⟨0, 10⟩ entryNames beforeGaps ["end"] rfl rfl
  exact ⟨(divided _ _ (by decide)).mpr (by decide +kernel), (divided _ _ (by decide)).mpr (by decide +kernel),
    whole, same, delivered (by decide +kernel)⟩

end Cfpl.Run
