import Cfpl.Command.FileStore
import Mathlib.Data.List.Basic

/-! A document that is written beside its program. No directory comes or goes by it, so every path leads where
it led before, and the path of the document leads to what was written. -/

namespace Cfpl.Command

private theorem prefix_of_mark {α : Type} {mark : α} {cut front back : List α} (apart : mark ∉ back)
    (inside : cut ++ [mark] <+: front ++ back) : cut ++ [mark] <+: front := by
  rcases List.prefix_or_prefix_of_prefix inside (List.prefix_append front back) with within | ⟨rest, whole⟩
  · exact within
  · rcases List.eq_nil_or_concat' rest with rfl | ⟨more, last, rfl⟩
    · rw [List.append_nil] at whole
      exact whole ▸ List.prefix_refl _
    · have same : last = mark := by
        rw [← List.append_assoc] at whole
        exact List.singleton_inj.mp (List.append_inj_right' whole rfl)
      obtain ⟨tail, split⟩ := inside
      rw [← whole, List.append_assoc, List.append_cancel_left_eq] at split
      refine absurd ?_ apart
      rw [← split, same]
      simp

namespace FileStore

theorem lookup_put (path asked : String) (bytes : ByteArray) (files : List (String × ByteArray)) :
    (put path bytes files).lookup asked = if asked = path then some bytes else files.lookup asked := by
  induction files with
  | nil =>
    by_cases same : asked = path
    · simp [put, same]
    · simp [put, List.lookup_cons, same, beq_eq_false_iff_ne.mpr same]
  | cons first rest ih =>
    obtain ⟨other, old⟩ := first
    unfold put
    split
    · subst path
      by_cases same : asked = other
      · simp [same]
      · simp [List.lookup_cons, same, beq_eq_false_iff_ne.mpr same]
    · split
      · by_cases same : asked = path
        · simp [same]
        · simp [List.lookup_cons, same, beq_eq_false_iff_ne.mpr same]
      · by_cases here : asked = other
        · subst here
          have apart : asked ≠ path := fun same => by simp_all
          simp [apart]
        · simp [List.lookup_cons, beq_eq_false_iff_ne.mpr here, ih]

private theorem any_put (test : String → Bool) (path : String) (bytes : ByteArray)
    (files : List (String × ByteArray)) :
    (put path bytes files).any (fun file => test file.1) =
      (test path || files.any fun file => test file.1) := by
  induction files with
  | nil => rfl
  | cons first rest ih =>
    obtain ⟨other, old⟩ := first
    unfold put
    split
    · subst path
      simp
    · split
      · rfl
      · rw [List.any_cons, ih, List.any_cons, Bool.or_left_comm]

private theorem key_concat {steps : List String} (some_ : steps ≠ []) (last : String) :
    key (steps ++ [last]) = key steps ++ "/" ++ last := by
  unfold key
  rw [String.intercalate_append_of_ne_nil some_ (List.cons_ne_nil last []), String.intercalate_singleton]

private theorem key_extended (steps : List String) (last ending : String) :
    key (steps ++ [last ++ ending]) = key (steps ++ [last]) ++ ending := by
  cases steps with
  | nil => rfl
  | cons first rest =>
    rw [key_concat (List.cons_ne_nil _ _), key_concat (List.cons_ne_nil _ _)]
    simp only [String.append_assoc]

private theorem isDirectory_dropLast {store : FileStore} {steps : List String} (directory : store.isDirectory steps) :
    store.isDirectory steps.dropLast := by
  rcases List.eq_nil_or_concat' steps with rfl | ⟨front, last, rfl⟩
  · exact directory
  · rw [List.dropLast_concat]
    cases front with
    | nil => rfl
    | cons first rest =>
      unfold isDirectory at directory ⊢
      rw [Bool.or_eq_true] at directory ⊢
      rcases directory with none | inside
      · exact absurd none (by simp)
      · obtain ⟨file, member, lies⟩ := List.any_eq_true.mp inside
        refine .inr (List.any_eq_true.mpr ⟨file, member, ?_⟩)
        rw [List.isPrefixOf_iff_prefix] at lies ⊢
        refine List.IsPrefix.trans ?_ lies
        rw [key_concat (List.cons_ne_nil first rest)]
        simp only [String.toList_append, List.append_assoc]
        exact (List.prefix_append_right_inj _).mpr (List.prefix_append _ _)

private theorem follow_congr {store later : FileStore}
    (same : ∀ steps, later.isDirectory steps = store.isDirectory steps) (place steps : List String) :
    later.follow place steps = store.follow place steps := by
  induction steps generalizing place with
  | nil => rfl
  | cons first rest ih =>
    by_cases upward : first = ".."
    · subst upward
      simp only [follow, same, ih]
    · simp only [follow, same, ih]

private theorem follow_concat {store : FileStore} {name : String} (down : name ≠ "..") (place front : List String) :
    store.follow place (front ++ [name]) = match store.follow place front with
      | .inside directory => if store.isDirectory directory then .inside (directory ++ [name]) else .nowhere
      | .outside | .nowhere => .nowhere := by
  induction front generalizing place with
  | nil => simp [follow]
  | cons first rest ih =>
    by_cases upward : first = ".."
    · subst upward
      simp only [List.cons_append, follow, ih]
      split
      · rfl
      · split
        · have otherwise : (rest ++ [name]).all (· == "..") = false := by simp [down]
          rw [otherwise]
          cases rest.all (· == "..") <;> rfl
        · rfl
    · simp only [List.cons_append, follow, ih]
      split <;> rfl

private theorem isDirectory_of_upward {store : FileStore} {place front steps : List String}
    (led : store.follow place (front ++ [".."]) = .inside steps) : store.isDirectory steps := by
  induction front generalizing place with
  | nil =>
    simp only [List.nil_append, follow] at led
    split at led
    · cases led
    · next directory =>
      split at led
      · simp at led
      · cases led
        exact isDirectory_dropLast (by simpa using directory)
  | cons first rest ih =>
    by_cases upward : first = ".."
    · subst upward
      simp only [List.cons_append, follow] at led
      split at led
      · cases led
      · split at led
        · split at led <;> cases led
        · exact ih led
    · simp only [List.cons_append, follow] at led
      split at led
      · exact ih led
      · cases led

section Written

variable {store : FileStore} {directory : List String} {last ending : String} {program : ByteArray}
  (found : store.files.lookup (key (directory ++ [last])) = some program) (flat : '/' ∉ ending.toList)
include found flat

private theorem isDirectory_write (bytes : ByteArray) (steps : List String) :
    (store.write (key (directory ++ [last ++ ending])) bytes).isDirectory steps = store.isDirectory steps := by
  unfold isDirectory write
  rw [any_put (fun path => ((key steps) ++ "/").toList.isPrefixOf path.toList)]
  congr 1
  rw [Bool.or_eq_right_iff_imp]
  intro lies
  obtain ⟨before, behind, split, _⟩ := List.lookup_eq_some_iff.mp found
  refine List.any_eq_true.mpr ⟨(key (directory ++ [last]), program), by simp [split], ?_⟩
  rw [List.isPrefixOf_iff_prefix, key_extended, String.toList_append, String.toList_append] at lies
  rw [List.isPrefixOf_iff_prefix, String.toList_append]
  exact prefix_of_mark flat lies

end Written

private theorem lookup_cases {store : FileStore} {path : Path} {bytes : ByteArray}
    (found : store.lookup path = .file bytes) :
    ∃ steps, store.destination path = .inside steps ∧ store.isDirectory steps = false ∧
      store.files.lookup (key steps) = some bytes := by
  unfold lookup at found
  split at found
  · next steps led =>
    split at found
    · cases found
    · next file =>
      split at found
      · next held =>
        cases found
        exact ⟨steps, led, by simpa using file, held⟩
      · cases found
  · cases found
  · cases found

private theorem destination_cases {store : FileStore} {path : Path} {steps : List String}
    (led : store.destination path = .inside steps) :
    path.root = "" ∧ store.follow [] path.steps = .inside steps := by
  unfold destination at led
  split at led
  · next here => exact ⟨here, led⟩
  · split at led <;> cases led

private theorem destination_extended {store : FileStore} {path : Path} {bytes : ByteArray}
    (found : store.lookup path = .file bytes) :
    ∃ directory last, store.files.lookup (key (directory ++ [last])) = some bytes ∧
      store.documentSteps path = directory ++ [last ++ documentEnding] ∧
      store.destination (path.extended documentEnding) = .inside (directory ++ [last ++ documentEnding]) := by
  obtain ⟨steps, led, file, held⟩ := lookup_cases found
  obtain ⟨here, followed⟩ := destination_cases led
  rcases List.eq_nil_or_concat' path.steps with none | ⟨front, name, parted⟩
  · rw [none] at followed
    cases followed
    cases file
  · rw [parted] at followed
    have down : name ≠ ".." := by
      rintro rfl
      rw [isDirectory_of_upward followed] at file
      cases file
    rw [follow_concat down] at followed
    split at followed
    · next directory reached =>
      split at followed
      · next inside =>
        cases followed
        have named : name ++ documentEnding ≠ ".." := by
          intro same
          have ending : documentEnding.length = 9 := rfl
          have upward : "..".length = 2 := rfl
          have short := congrArg String.length same
          rw [String.length_append] at short
          omega
        refine ⟨directory, name, held, ?_, ?_⟩
        · unfold documentSteps
          rw [led]
          simp [Path.extended]
        · have extended : path.extended documentEnding = ⟨path.root, front ++ [name ++ documentEnding]⟩ := by
            unfold Path.extended
            rw [parted, List.getLast?_concat, List.dropLast_concat]
          rw [extended, destination, if_pos here, follow_concat named, reached]
          exact if_pos inside
      · cases followed
    · cases followed
    · cases followed

/-- A document that is written is found where it was written, and nothing else about the directories
changes. -/
theorem lookup_document {store : FileStore} {path : Path} {bytes : ByteArray}
    (found : store.lookup path = .file bytes) (free : store.isDirectory (store.documentSteps path) = false)
    (text : String) :
    (store.keep path (some (.document text))).lookup (path.extended documentEnding) = .file text.toUTF8 ∧
      ∀ steps, (store.keep path (some (.document text))).isDirectory steps = store.isDirectory steps := by
  obtain ⟨directory, last, held, place, led⟩ := destination_extended found
  have flat : '/' ∉ documentEnding.toList := by decide
  rw [place] at free
  have kept : store.keep path (some (.document text)) =
      store.write (key (directory ++ [last ++ documentEnding])) text.toUTF8 := by
    rw [keep, place]
  have same (steps : List String) :
      (store.keep path (some (.document text))).isDirectory steps = store.isDirectory steps := by
    rw [kept]
    exact isDirectory_write held flat text.toUTF8 steps
  refine ⟨?_, same⟩
  have ledLater : (store.keep path (some (.document text))).destination (path.extended documentEnding) =
      .inside (directory ++ [last ++ documentEnding]) := by
    rw [← led]
    unfold destination
    rw [follow_congr same]
  unfold lookup
  rw [ledLater]
  dsimp only
  rw [same, free, kept, write, lookup_put, if_pos rfl]
  rfl

end FileStore

end Cfpl.Command
