import Cfpl.Proofs.Source.Spaced
import Cfpl.Source.Layout

/-! A quotation is cut as one literal that stands for its text, whatever is in it and whatever stands behind
it, and so a line that outputs quotations is cut into them. -/

namespace Cfpl.Source

def Continues (text : List Char) (said : List (Symbol × String × Option Value)) : Prop :=
  ∀ context : Context, context.lineStart = false → Speaks (piecesFrom context text) said

namespace Continues

variable {left : List Char} {said : List (Symbol × String × Option Value)}

theorem token {first : Char} {tail : List Char} {symbol : Symbol} {literal : Option Value}
    (made : ∀ context, cut context first (tail ++ left) = ⟨tail, some (symbol, literal), []⟩)
    (open_ : symbol ≠ .newline) (continues : Continues left said) :
    Continues (first :: tail ++ left) ((symbol, .ofList (first :: tail), literal) :: said) :=
  fun context _ => (continues _ (decide_eq_false open_)).token (made context)

theorem blanks (count : Nat) (continues : Continues left said) :
    Continues (.replicate count ' ' ++ left) said := by
  induction count with
  | zero => exact continues
  | succ count ih =>
    rw [List.replicate_succ, List.cons_append]
    intro context inLine
    exact (ih (context.after [' '] none) inLine).blank

theorem newline : Continues ['\n'] [(.newline, "\n", none)] := by
  intro context inLine
  have made : cut context '\n' ([] ++ []) = ⟨[], some (.newline, none), []⟩ := by
    show (if context.lineStart then _ else _) = _
    rw [if_neg (by rw [inLine]; exact Bool.false_ne_true)]
    rfl
  have done : Speaks (piecesFrom (context.after ['\n'] (some (.newline, none))) []) [] := by
    rw [piecesFrom]
    exact ⟨rfl, List.forall_mem_nil _⟩
  exact done.token made

end Continues

namespace Quotation

private theorem toList_spelling (quotation : Quotation) :
    quotation.spelling.toList = '"' :: (quotation.content ++ ['"']) := by
  simp [spelling]

private theorem quotedToken_of_noWord {text : String} (noWord : text ∉ ["TRUE", "FALSE", "#"]) :
    quotedToken text.toList = (.text, some (.string text)) := by
  have other (word : String) (listed : word ∈ ["TRUE", "FALSE", "#"]) : text.toList ≠ word.toList :=
    fun same => noWord (String.toList_inj.mp same ▸ listed)
  have noMark : text.toList ≠ ['#'] := other "#" (by decide)
  unfold quotedToken
  rw [if_neg (other "TRUE" (by decide)), if_neg (other "FALSE" (by decide)), if_neg noMark, String.ofList_toList]

private theorem cut_quotation (quotation : Quotation) (context : Context) (left : List Char) :
    cut context '"' (quotation.content ++ ['"'] ++ left) =
      ⟨quotation.content ++ ['"'], some (.text, some (.string quotation.text)), []⟩ := by
  cases quotation with
  | bracketed c => exact escape_of_character c left
  | plain text unquoted unbracketed noWord =>
    have plainHead : (text.toList ++ '"' :: left).head? ≠ some '[' := by
      cases same : text.toList with
      | nil => exact fun other => absurd (Option.some.inj other) (by decide)
      | cons c rest => rwa [same] at unbracketed
    show cut context '"' (text.toList ++ ['"'] ++ left) = _
    rw [List.append_assoc, List.singleton_append]
    show (if (text.toList ++ '"' :: left).head? = some '[' then _ else _) = _
    rw [if_neg plainHead, string_of_content unquoted, quotedToken_of_noWord noWord]
    rfl

def said (quotation : Quotation) : Symbol × String × Option Value :=
  (.text, quotation.spelling, some (.string quotation.text))

def saidBehind (others : List Quotation) : List (Symbol × String × Option Value) :=
  others.flatMap fun quotation => [(.ampersand, "&", none), quotation.said]

private theorem continues_quotation {left : List Char} {said : List (Symbol × String × Option Value)}
    (quotation : Quotation) (continues : Continues left said) :
    Continues (quotation.spelling.toList ++ left) (quotation.said :: said) := by
  have spelled : quotation.spelling = .ofList ('"' :: (quotation.content ++ ['"'])) := by
    rw [← toList_spelling, String.ofList_toList]
  rw [toList_spelling, Quotation.said, spelled]
  exact continues.token (quotation.cut_quotation · left) Symbol.noConfusion

private theorem continues_others (others : List Quotation) :
    Continues (others.flatMap (fun quotation => " & ".toList ++ quotation.spelling.toList) ++ ['\n'])
      (saidBehind others ++ [(.newline, "\n", none)]) := by
  induction others with
  | nil => exact .newline
  | cons quotation others ih =>
    rw [List.flatMap_cons, List.append_assoc, List.append_assoc]
    have behind := (continues_quotation quotation ih).blanks 1
    have made (left : List Char) (context : Context) :
        cut context '&' ([] ++ left) = ⟨[], some (.ampersand, none), []⟩ := rfl
    exact (behind.token (made _) (by decide)).blanks 1

private theorem intercalate_cons {α : Type} (separator first : List α) (others : List (List α)) :
    separator.intercalate (first :: others) = first ++ others.flatMap (separator ++ ·) := by
  induction others generalizing first with
  | nil => simp
  | cons second others ih =>
    rw [List.intercalate_cons_cons, ih, List.flatMap_cons, List.append_assoc, List.append_assoc]

private theorem toList_outputLine (count : Nat) (first : Quotation) (others : List Quotation) :
    (outputLine count (first :: others)).toList = 'O' :: "UTPUT:".toList ++ (.replicate count ' ' ++
      (first.spelling.toList ++ (others.flatMap (fun quotation =>
        " & ".toList ++ quotation.spelling.toList) ++ ['\n']))) := by
  unfold outputLine
  rw [String.toList_append, String.toList_append, String.toList_append, String.toList_ofList,
    String.toList_intercalate, List.map_cons, List.map_cons, intercalate_cons, List.map_map, List.flatMap_map]
  simp only [List.append_assoc, String.toList_ofList]
  rfl

theorem speaks_outputLine (count : Nat) (first : Quotation) (others : List Quotation) :
    Speaks (pieces (outputLine count (first :: others)))
      ((.outputWord, "OUTPUT:", none) :: first.said :: (saidBehind others ++ [(.newline, "\n", none)])) := by
  unfold pieces
  rw [toList_outputLine]
  refine ((continues_quotation first (continues_others others)).blanks count _ ?_).token ?_
  · rfl
  · rw [cut_of_letter (by decide) (by decide)]
    have letters : ∀ c ∈ "UTPUT".toList, isWordChar c := List.all_eq_true.mp (by decide)
    exact word_with_colon letters _

end Quotation

end Cfpl.Source
