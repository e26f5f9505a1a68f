import Cfpl.Json
import Cfpl.Proofs.Decimal.Digits

/-! JSON as it is written holds no carriage return, so its lines are the same however they are read. -/

namespace Cfpl

namespace Text

def Clean (text : List Char) : Prop := ∀ c ∈ text, c ≠ '\r'

instance (text : List Char) : Decidable (Clean text) := List.decidableBAll (· ≠ '\r') text

theorem Clean.append {front back : List Char} (clean : Clean front) (behind : Clean back) :
    Clean (front ++ back) :=
  List.forall_mem_append.mpr ⟨clean, behind⟩

theorem Clean.cons {c : Char} {text : List Char} (other : c ≠ '\r') (clean : Clean text) : Clean (c :: text) :=
  List.forall_mem_cons.mpr ⟨other, clean⟩

theorem Clean.ofDigits {text : List Char} (digits : ∀ c ∈ text, c.isDigit) : Clean text := by
  intro c member same
  have digit := digits c member
  rw [same] at digit
  cases digit

private theorem Clean.ofSublist {part text : List Char} (clean : Clean text) (inside : part.Sublist text) :
    Clean part :=
  fun c member => clean c (inside.subset member)

private theorem clean_toDigits (n : Nat) : Clean (Nat.toDigits 10 n) :=
  .ofDigits (Decimal.digits_toDigits n)

private theorem clean_replicate {c : Char} (other : c ≠ '\r') (count : Nat) : Clean (List.replicate count c) := by
  intro same member
  rwa [List.eq_of_mem_replicate member]

private theorem clean_intercalate {separator : List Char} {parts : List (List Char)} (clean : Clean separator)
    (all : ∀ part ∈ parts, Clean part) : Clean (separator.intercalate parts) := by
  induction parts with
  | nil => exact List.forall_mem_nil _
  | cons first rest ih =>
    obtain ⟨one, others⟩ := List.forall_mem_cons.mp all
    cases rest with
    | nil => simpa using one
    | cons second rest =>
      rw [List.intercalate_cons_cons]
      exact (one.append clean).append (ih others)

private theorem clean_hex (width n : Nat) : Clean (hex width n) := by
  induction width generalizing n with
  | zero => exact List.forall_mem_nil _
  | succ width ih =>
    have digit : (n % 16).digitChar ≠ '\r' := by
      have bound : n % 16 < 16 := Nat.mod_lt n (by decide)
      generalize n % 16 = digit at bound ⊢
      revert digit
      decide
    exact (ih (n / 16)).append (.cons digit (List.forall_mem_nil _))

private theorem unifyLineEnds_of_clean {text : List Char} (clean : Clean text) : unifyLineEnds text = text := by
  induction text using unifyLineEnds.induct with
  | case1 => rfl
  | case2 rest _ => exact absurd rfl (clean '\r' (.head _))
  | case3 c rest _ ih =>
    obtain ⟨other, behind⟩ := List.forall_mem_cons.mp clean
    rw [unifyLineEnds, if_neg other, ih behind]
    exact fun _ same _ => other same

end Text

open Text

namespace Decimal

private theorem clean_plain {digits : List Char} (clean : Clean digits) (exponent : Int) :
    Clean (plain digits exponent) := by
  have zeros (count : Nat) : Clean (List.replicate count '0') := clean_replicate (by decide) count
  unfold plain
  split
  · exact .cons (by decide) (.cons (by decide) ((zeros _).append clean))
  · refine ((clean.ofSublist (List.take_sublist _ _)).append (zeros _)).append (.cons (by decide) ?_)
    split
    · decide
    · exact clean.ofSublist (List.drop_sublist _ _)

private theorem clean_exponentText (exponent : Int) : Clean (documentLayout.exponentText exponent) := by
  have zeros (count : Nat) : Clean (List.replicate count '0') := clean_replicate (by decide) count
  unfold Layout.exponentText
  refine (Clean.append ?_ (zeros _)).append (clean_toDigits _)
  split <;> decide

private theorem clean_scientific {digits : List Char} (clean : Clean digits) (exponent : Int) :
    Clean (documentLayout.scientific digits exponent) := by
  unfold Layout.scientific
  refine (Clean.append (clean.ofSublist (List.take_sublist _ _)) ?_).append
    (.cons (by decide) (clean_exponentText exponent))
  split
  · exact .cons (by decide) (clean.ofSublist (List.drop_sublist _ _))
  · exact List.forall_mem_nil _

private theorem clean_write (x : Float) : Clean (documentLayout.write x).toList := by
  have sign (negative : Prop) [Decidable negative] : Clean (if negative then "-" else "").toList := by
    split <;> decide
  unfold Layout.write
  split
  · decide
  · dsimp only
    split
    · rw [String.toList_append]
      exact (sign _).append (by decide)
    · split
      · rw [String.toList_append]
        exact (sign _).append (by decide)
      · rw [String.toList_append, String.toList_ofList]
        refine (sign _).append ?_
        unfold Layout.positive
        dsimp only
        split
        · exact clean_plain (clean_toDigits _) _
        · exact clean_scientific (clean_toDigits _) _

end Decimal

namespace Json

private theorem clean_escaped (c : Char) : Clean (escaped c) := by
  have pair (second : Char) (other : second ≠ '\r') : Clean ['\\', second] :=
    .cons (by decide) (.cons other (List.forall_mem_nil _))
  unfold escaped
  split
  case isTrue quote =>
    apply pair
    rintro rfl
    cases quote
  split
  · exact pair 'n' (by decide)
  split
  · exact pair 'r' (by decide)
  next other =>
    split
    · exact pair 't' (by decide)
    split
    · exact pair 'b' (by decide)
    split
    · exact pair 'f' (by decide)
    split
    · exact .cons (by decide) (.cons (by decide) (clean_hex 4 c.toNat))
    · exact .cons other (List.forall_mem_nil _)

private theorem clean_writeText (text : String) : Clean (writeText text).toList := by
  have inside : Clean (text.toList.flatMap escaped) := by
    intro c member
    obtain ⟨other, _, part⟩ := List.mem_flatMap.mp member
    exact clean_escaped other c part
  rw [writeText, String.toList_ofList]
  exact .cons (by decide) (inside.append (by decide))

private theorem clean_newLine (depth : Nat) : Clean (newLine depth).toList := by
  rw [newLine, String.toList_ofList]
  exact .cons (by decide) (clean_replicate (by decide) _)

private theorem clean_bracketed (depth : Nat) {opening closing : String} {lines : List String}
    (opens : Clean opening.toList) (closes : Clean closing.toList) (all : ∀ line ∈ lines, Clean line.toList) :
    Clean (bracketed depth opening closing lines).toList := by
  unfold bracketed
  split
  · rw [String.toList_append]
    exact opens.append closes
  · have comma : Clean ("," ++ newLine (depth + 1)).toList := by
      rw [String.toList_append]
      exact Clean.append (by decide) (clean_newLine _)
    simp only [String.toList_append, String.toList_intercalate] at comma ⊢
    refine (((opens.append (clean_newLine _)).append (clean_intercalate comma ?_)).append
      (clean_newLine _)).append closes
    intro part member
    obtain ⟨line, listed, rfl⟩ := List.mem_map.mp member
    exact all line listed

private theorem clean_int (n : Int) : Clean (toString n).toList := by
  rw [Decimal.toList_toString]
  split
  · exact .cons (by decide) (clean_toDigits _)
  · exact clean_toDigits _

mutual

private theorem clean_value : ∀ (depth : Nat) (value : Json), Clean (write depth value).toList
  | _, .null => (by decide : Clean "null".toList)
  | _, .bool true => (by decide : Clean "true".toList)
  | _, .bool false => (by decide : Clean "false".toList)
  | _, .int n => clean_int n
  | _, .float x => Decimal.clean_write x
  | _, .string text => clean_writeText text
  | depth, .array items => clean_bracketed depth (by decide) (by decide) (clean_items depth items)
  | depth, .object fields => clean_bracketed depth (by decide) (by decide) (clean_fields depth fields)
termination_by structural _ value => value

private theorem clean_items : ∀ (depth : Nat) (items : List Json),
    ∀ line ∈ writeItems depth items, Clean line.toList
  | _, [] => List.forall_mem_nil _
  | depth, item :: rest =>
    List.forall_mem_cons.mpr ⟨clean_value (depth + 1) item, clean_items depth rest⟩
termination_by structural _ items => items

private theorem clean_fields : ∀ (depth : Nat) (fields : List (String × Json)),
    ∀ line ∈ writeFields depth fields, Clean line.toList
  | _, [] => List.forall_mem_nil _
  | depth, (name, value) :: rest => by
    refine List.forall_mem_cons.mpr ⟨?_, clean_fields depth rest⟩
    have colon : Clean ": ".toList := by decide
    rw [String.toList_append, String.toList_append]
    exact ((clean_writeText name).append colon).append (clean_value (depth + 1) value)
termination_by structural _ fields => fields

end

theorem unifyLineEnds_indented (document : Json) :
    unifyLineEnds document.indented.toList = document.indented.toList :=
  unifyLineEnds_of_clean (clean_value 0 document)

end Json

end Cfpl
