import Cfpl.Proofs.Json.Numbers

/-! JSON is read back as the value that was written, if it has no number that the notation lacks and no object with two
fields of one name. -/

namespace Cfpl.Json

/-- Values that are found again in what is written of them. -/
inductive Regular : Json → Prop
  | null : Regular null
  | bool (truth : Bool) : Regular (bool truth)
  | int {n : Int} (short : n.natAbs < 10 ^ Field.digitLimit) : Regular (int n)
  | float {x : Float} (finite : x.isFinite) : Regular (float x)
  | string (text : String) : Regular (string text)
  | array {items : List Json} (all : ∀ item ∈ items, Regular item) : Regular (array items)
  | object {fields : List (String × Json)} (apart : (fields.map Prod.fst).Nodup)
    (all : ∀ field ∈ fields, Regular field.2) : Regular (object fields)

variable {rest : List Char}

section Texts

private theorem hexValue?_digitChar {n : Nat} (digit : n < 16) : hexValue? n.digitChar = some n := by
  revert n
  decide

private theorem units?_hex {n : Nat} (short : n < 0x10000) :
    units? ('\\' :: 'u' :: (Text.hex 4 n ++ rest)) = (units? rest).map fun (units, rest) => (n :: units, rest) := by
  have digits : Text.hex 4 n = [(n / 16 / 16 / 16 % 16).digitChar, (n / 16 / 16 % 16).digitChar,
      (n / 16 % 16).digitChar, (n % 16).digitChar] := rfl
  have value (m : Nat) : hexValue? (m % 16).digitChar = some (m % 16) := hexValue?_digitChar (Nat.mod_lt m (by decide))
  have whole : (n / 16 / 16 / 16 % 16 * 16 + n / 16 / 16 % 16) * 256 + (n / 16 % 16 * 16 + n % 16) = n := by omega
  rw [digits]
  show units? ('\\' :: 'u' :: _ :: _ :: _ :: _ :: rest) = _
  rw [units?]
  simp only [value, Option.bind_eq_bind, Option.bind_some, whole]
  cases units? rest <;> rfl

private theorem units?_pair {c : Char} {unit : Nat} (known : escapedUnit? c = some unit) :
    units? ('\\' :: c :: rest) = (units? rest).map fun (units, rest) => (unit :: units, rest) := by
  rw [units?, known]
  · cases units? rest <;> rfl
  · rintro _ _ _ _ _ rfl
    cases known

private theorem units?_plain {c : Char} (quote : c ≠ '"') (backslash : c ≠ '\\') (printed : ¬c.toNat < 0x20) :
    units? (c :: rest) = (units? rest).map fun (units, rest) => (c.toNat :: units, rest) := by
  rw [units?]
  · rw [if_neg (by simp [printed, backslash])]
    cases units? rest <;> rfl
  all_goals
    intros
    contradiction

private theorem units?_escaped (c : Char) :
    units? (escaped c ++ rest) = (units? rest).map fun (units, rest) => (c.toNat :: units, rest) := by
  unfold escaped
  split
  · next marked =>
    rcases Bool.or_eq_true_iff.mp marked with quote | backslash
    · obtain rfl := of_decide_eq_true quote
      exact units?_pair rfl
    · obtain rfl := of_decide_eq_true backslash
      exact units?_pair rfl
  next unmarked =>
  split
  · next same => exact same ▸ units?_pair rfl
  split
  · next same => exact same ▸ units?_pair rfl
  split
  · next same => exact same ▸ units?_pair rfl
  split
  · next same => exact same ▸ units?_pair rfl
  split
  · next same => exact same ▸ units?_pair rfl
  split
  · next control => exact units?_hex (by omega)
  next printed =>
  simp only [Bool.or_eq_true, decide_eq_true_eq, not_or] at unmarked
  exact units?_plain unmarked.1 unmarked.2 printed

private theorem units?_text (text : List Char) :
    units? (text.flatMap escaped ++ '"' :: rest) = some (text.map Char.toNat, rest) := by
  induction text with
  | nil => rfl
  | cons c text ih =>
    rw [List.flatMap_cons, List.append_assoc, units?_escaped, ih]
    rfl

private theorem joinUnits_text (text : List Char) : joinUnits (text.map Char.toNat) = text := by
  induction text with
  | nil => rfl
  | cons c text ih =>
    have valid : c.toNat < 0xd800 ∨ 0xdfff < c.toNat ∧ c.toNat < 0x110000 := c.valid
    have high : isHighSurrogate c.toNat = false := by simp [isHighSurrogate]; omega
    have low : isLowSurrogate c.toNat = false := by simp [isLowSurrogate]; omega
    cases text with
    | nil => simp [joinUnits, high, low]
    | cons next text =>
      rw [List.map_cons] at ih
      simp [joinUnits, high, low, ih]

private theorem readText_written (text : String) :
    readText (text.toList.flatMap escaped ++ '"' :: rest) = .ok (text, rest) := by
  rw [readText, units?_text]
  show Except.ok (String.ofList (joinUnits (text.toList.map Char.toNat)), rest) = _
  rw [joinUnits_text, String.ofList_toList]

end Texts

section Lines

/-- The lines of a list as they stand behind its opening bracket. -/
private def enclosed (depth : Nat) (closing : Char) : List (List Char) → List Char
  | [] => [closing]
  | [line] => line ++ ((newLine depth).toList ++ [closing])
  | line :: next :: lines => line ++ (',' :: ((newLine (depth + 1)).toList ++ enclosed depth closing (next :: lines)))

variable {depth : Nat} {closing : Char}

private theorem enclosed_eq {lines : List (List Char)} (some_ : lines ≠ []) :
    enclosed depth closing lines =
      (',' :: (newLine (depth + 1)).toList).intercalate lines ++ ((newLine depth).toList ++ [closing]) := by
  induction lines with
  | nil => exact absurd rfl some_
  | cons line lines ih =>
    cases lines with
    | nil => simp [enclosed]
    | cons next lines => simp [enclosed, ih]

private theorem toList_bracketed {opening closing : String} {last : Char} (ends : closing.toList = [last])
    {lines : List String} (some_ : lines ≠ []) :
    (bracketed depth opening closing lines).toList =
      opening.toList ++ ((newLine (depth + 1)).toList ++ enclosed depth last (lines.map String.toList)) := by
  rw [enclosed_eq (by simpa using some_)]
  simp [bracketed, some_, String.toList_intercalate, ends]

private theorem length_enclosed (depth : Nat) (closing : Char) (lines : List (List Char)) :
    lines.length ≤ (enclosed depth closing lines).length ∧
      ∀ line ∈ lines, line.length ≤ (enclosed depth closing lines).length := by
  induction lines with
  | nil => simp
  | cons line lines ih =>
    cases lines with
    | nil =>
      simp only [enclosed, List.length_append, List.length_singleton, List.forall_mem_singleton]
      omega
    | cons next lines =>
      obtain ⟨count, all⟩ := ih
      simp only [enclosed, List.length_append, List.length_cons] at count ⊢
      refine ⟨by omega, List.forall_mem_cons.mpr ⟨by omega, fun other member => ?_⟩⟩
      have inside := all other member
      omega

private theorem skipSpace_newLine (depth : Nat) (text : List Char) :
    skipSpace ((newLine depth).toList ++ text) = skipSpace text := by
  refine List.dropWhile_append_of_pos fun c member => ?_
  rw [newLine, String.toList_ofList] at member
  rcases List.mem_cons.mp member with rfl | inside
  · rfl
  · rw [List.eq_of_mem_replicate inside]
    rfl

private theorem skipSpace_cons {c : Char} (text : List Char) (other : isSpace c = false) :
    skipSpace (c :: text) = c :: text :=
  List.dropWhile_cons_of_neg (ne_true_of_eq_false other)

private theorem stops_newLine (depth : Nat) (text : List Char) : Stops ((newLine depth).toList ++ text) := by
  rw [newLine, String.toList_ofList]
  intro c found
  cases found
  exact .inr rfl

private theorem stops_comma (text : List Char) : Stops (',' :: text) := by
  intro c found
  cases found
  exact .inl rfl

section Listed

variable {α : Type} {readOne : List Char → Except Trouble (α × List Char)} {item : α} {items : List α}
  {text behind later : List Char} {size : Nat}
  (first : readOne (skipSpace text) = .ok (item, behind))
include first

private theorem readListed_last (ends : skipSpace behind = closing :: rest) :
    readListed readOne closing (size + 1) text = .ok ([item], rest) := by
  simp [readListed, first, ends, bind, Except.bind, pure, Except.pure]

private theorem readListed_more (ends : skipSpace behind = ',' :: rest) (other : ',' ≠ closing)
    (others : readListed readOne closing size rest = .ok (items, later)) :
    readListed readOne closing (size + 1) text = .ok (item :: items, later) := by
  simp [readListed, first, ends, other, others, bind, Except.bind, pure, Except.pure]

end Listed

private theorem readListed_enclosed {α : Type} {readOne : List Char → Except Trouble (α × List Char)}
    {write : α → List Char} {items : List α} (ends : isSpace closing = false) (other : ',' ≠ closing)
    (reads : ∀ item ∈ items, ∀ rest, Stops rest → readOne (skipSpace (write item ++ rest)) = .ok (item, rest))
    (some_ : items ≠ []) {size : Nat} (enough : items.length ≤ size) (rest : List Char) :
    readListed readOne closing size
        ((newLine (depth + 1)).toList ++ (enclosed depth closing (items.map write) ++ rest)) = .ok (items, rest) := by
  induction items generalizing size with
  | nil => exact absurd rfl some_
  | cons item items ih =>
    obtain ⟨first, others⟩ := List.forall_mem_cons.mp reads
    cases size with
    | zero => exact absurd enough (Nat.not_succ_le_zero _)
    | succ size =>
      cases items with
      | nil =>
        simp only [List.map_cons, List.map_nil, enclosed, List.append_assoc]
        have read := first _ (stops_newLine depth ([closing] ++ rest))
        rw [← skipSpace_newLine (depth + 1)] at read
        refine readListed_last read ?_
        rw [skipSpace_newLine]
        exact skipSpace_cons rest ends
      | cons next items =>
        have more := ih others (List.cons_ne_nil next items) (Nat.le_of_succ_le_succ enough)
        simp only [List.map_cons, enclosed, List.append_assoc, List.cons_append] at more ⊢
        have read := first _ (stops_comma ((newLine (depth + 1)).toList ++
          (enclosed depth closing (write next :: items.map write) ++ rest)))
        rw [← skipSpace_newLine (depth + 1)] at read
        exact readListed_more read (skipSpace_cons _ (by decide)) other more

private theorem reads_bracketed {α : Type} {readOne : List Char → Except Trouble (α × List Char)}
    {line : α → String}
    {items : List α} {opening closing : String} {first last : Char} (begins : opening.toList = [first])
    (ends : closing.toList = [last]) (bare : isSpace last = false) (apart : ',' ≠ last) (some_ : items ≠ [])
    {size : Nat} (enough : (bracketed depth opening closing (items.map line)).toList.length ≤ size + 1)
    (opens : ∀ item ∈ items, ∀ behind, ∃ c more,
      skipSpace ((line item).toList ++ behind) = c :: more ∧ c ≠ last)
    (reads : ∀ item ∈ items, (line item).toList.length ≤ size → ∀ rest, Stops rest →
      readOne (skipSpace ((line item).toList ++ rest)) = .ok (item, rest)) (rest : List Char) :
    ∃ inner c more, (bracketed depth opening closing (items.map line)).toList ++ rest = first :: inner ∧
      skipSpace inner = c :: more ∧ c ≠ last ∧ readListed readOne last size inner = .ok (items, rest) := by
  have text : (bracketed depth opening closing (items.map line)).toList =
      first :: ((newLine (depth + 1)).toList ++ enclosed depth last (items.map fun item => (line item).toList)) := by
    rw [toList_bracketed ends (by simpa using some_), begins, List.map_map]
    rfl
  rw [text] at enough ⊢
  obtain ⟨count, lengths⟩ := length_enclosed depth last (items.map fun item => (line item).toList)
  simp only [List.length_cons, List.length_append, List.length_map] at enough count
  have short : ∀ item ∈ items, (line item).toList.length ≤ size := by
    intro item member
    have inside := lengths _ (List.mem_map_of_mem member)
    omega
  obtain ⟨item, others, rfl⟩ := List.exists_cons_of_ne_nil some_
  obtain ⟨behind, starts⟩ : ∃ behind, enclosed depth last ((item :: others).map fun item => (line item).toList) =
      (line item).toList ++ behind := by
    cases others <;> exact ⟨_, rfl⟩
  obtain ⟨c, more, opened, other⟩ := opens item (.head _) (behind ++ rest)
  refine ⟨_, c, more, List.cons_append, ?_, other, ?_⟩
  · rw [List.append_assoc, skipSpace_newLine, starts, List.append_assoc]
    exact opened
  · rw [List.append_assoc]
    exact readListed_enclosed bare apart (fun item member => reads item member (short item member)) some_
      (by omega) rest

end Lines

section Values

private theorem writeItems_eq (depth : Nat) (items : List Json) :
    writeItems depth items = items.map (write (depth + 1)) := by
  induction items with
  | nil => rfl
  | cons item items ih => rw [writeItems, ih, List.map_cons]

private def fieldLine (depth : Nat) (field : String × Json) : String :=
  writeText field.1 ++ ": " ++ write (depth + 1) field.2

private theorem writeFields_eq (depth : Nat) (fields : List (String × Json)) :
    writeFields depth fields = fields.map (fieldLine depth) := by
  induction fields with
  | nil => rfl
  | cons field fields ih =>
    rw [writeFields, ih, List.map_cons]
    rfl

private theorem setField_apart {name : String} {value : Json} {fields : List (String × Json)}
    (apart : name ∉ fields.map Prod.fst) : setField name value fields = fields ++ [(name, value)] := by
  induction fields with
  | nil => rfl
  | cons field fields ih =>
    obtain ⟨other, others⟩ := not_or.mp (List.mem_cons.not.mp apart)
    rw [setField, if_neg (Ne.symm other), ih others]
    rfl

private theorem setFields_apart {kept fields : List (String × Json)}
    (apart : ((kept ++ fields).map Prod.fst).Nodup) :
    fields.foldl (fun kept field => setField field.1 field.2 kept) kept = kept ++ fields := by
  induction fields generalizing kept with
  | nil => simp
  | cons field fields ih =>
    have new : field.1 ∉ kept.map Prod.fst := by
      rw [List.map_append, List.map_cons] at apart
      exact fun old => List.disjoint_of_nodup_append apart old (.head _)
    rw [List.foldl_cons, setField_apart new, ih (by simpa using apart), List.append_assoc]
    rfl

/-- Nothing that a value begins with is a blank or closes a list. -/
private theorem head_of_readValue {text : List Char} {size : Nat} {value : Json}
    (read : readValue size text = .ok (value, rest)) :
    ∃ first more, text = first :: more ∧ isSpace first = false ∧ first ≠ ']' := by
  cases size with
  | zero => cases read
  | succ size =>
    cases text with
    | nil => cases read
    | cons first more =>
      refine ⟨first, more, rfl, eq_false_of_ne_true fun space => ?_, ?_⟩
      · simp only [isSpace, Bool.or_eq_true, beq_iff_eq] at space
        rcases space with ((rfl | rfl) | rfl) | rfl <;> cases read
      · rintro rfl
        cases read

section Opened

variable {first : Char} {text more later : List Char} {size : Nat} (opens : skipSpace text = first :: more)
include opens

private theorem readValue_items {items : List Json} (other : first ≠ ']')
    (read : readListed (readValue size) ']' size text = .ok (items, later)) :
    readValue (size + 1) ('[' :: text) = .ok (array items, later) := by
  rw [readValue]
  split
  · next closed =>
    rw [opens] at closed
    exact absurd (List.cons.inj closed).1 other
  · rw [read]
    rfl

private theorem readValue_fields {fields : List (String × Json)} (other : first ≠ '\x7d')
    (apart : (fields.map Prod.fst).Nodup)
    (read : readListed (readField (readValue size)) '\x7d' size text = .ok (fields, later)) :
    readValue (size + 1) ('\x7b' :: text) = .ok (object fields, later) := by
  rw [readValue]
  split
  · next closed =>
    rw [opens] at closed
    exact absurd (List.cons.inj closed).1 other
  · rw [read]
    exact congrArg (fun fields => Except.ok (object fields, later)) (setFields_apart apart)

end Opened

/-- A value is found again in front of whatever may stand behind it. -/
private def Returns (value : Json) : Prop :=
  ∀ depth size rest, (write depth value).toList.length ≤ size → Stops rest →
    readValue size ((write depth value).toList ++ rest) = .ok (value, rest)

private theorem Returns.ofSucc {value : Json} (some_ : ∀ depth, (write depth value).toList ≠ [])
    (reads : ∀ depth size rest, (write depth value).toList.length ≤ size + 1 → Stops rest →
      readValue (size + 1) ((write depth value).toList ++ rest) = .ok (value, rest)) : Returns value := by
  intro depth size rest enough stops
  cases size with
  | zero => exact absurd (List.length_eq_zero_iff.mp (Nat.le_zero.mp enough)) (some_ depth)
  | succ size => exact reads depth size rest enough stops

private theorem Returns.opens {value : Json} (returns : Returns value) (depth : Nat) (behind : List Char) :
    ∃ first more, skipSpace ((write depth value).toList ++ behind) = first :: more ∧ first ≠ ']' ∧
      (write depth value).toList ++ behind = first :: more := by
  have read := returns depth _ [] (Nat.le_refl _) nofun
  obtain ⟨first, more, text, bare, other⟩ := head_of_readValue read
  rw [List.append_nil] at text
  rw [text]
  exact ⟨first, more ++ behind, skipSpace_cons _ bare, other, rfl⟩

private theorem Returns.ofText {value : Json} {text : List Char}
    (written : ∀ depth, (write depth value).toList = text)
    (some_ : text ≠ []) (reads : ∀ size rest, readValue (size + 1) (text ++ rest) = .ok (value, rest)) :
    Returns value := by
  refine .ofSucc (fun depth => ?_) fun depth size rest _ _ => ?_
  · rwa [written]
  · rw [written]
    exact reads size rest

private theorem returns_null : Returns null := by
  have written : "null".toList = ['n', 'u', 'l', 'l'] := by decide
  exact .ofText (fun _ => written) (List.cons_ne_nil _ _) fun _ _ => rfl

private theorem returns_bool (truth : Bool) : Returns (bool truth) := by
  cases truth with
  | true =>
    have written : "true".toList = ['t', 'r', 'u', 'e'] := by decide
    exact .ofText (fun _ => written) (List.cons_ne_nil _ _) fun _ _ => rfl
  | false =>
    have written : "false".toList = ['f', 'a', 'l', 's', 'e'] := by decide
    exact .ofText (fun _ => written) (List.cons_ne_nil _ _) fun _ _ => rfl

private theorem returns_int {n : Int} (short : n.natAbs < 10 ^ Field.digitLimit) : Returns (int n) := by
  refine .ofSucc (fun _ => ?_) fun _ size rest _ stops => readValue_int stops size short
  rw [write, Decimal.toList_toString]
  split
  · exact List.cons_ne_nil _ _
  · exact Nat.toDigits_ne_nil

private theorem returns_float {x : Float} (finite : x.isFinite) : Returns (float x) := by
  refine .ofSucc (fun _ none => ?_) fun _ size rest _ stops => readValue_float stops size finite
  have nothing : Stops [] := nofun
  have read := readValue_float nothing 0 finite
  rw [write] at none
  rw [none] at read
  cases read

private theorem toList_writeText (text : String) (rest : List Char) :
    (writeText text).toList ++ rest = '"' :: (text.toList.flatMap escaped ++ '"' :: rest) := by
  simp [writeText]

private theorem toList_fieldLine (depth : Nat) (field : String × Json) (behind : List Char) :
    (fieldLine depth field).toList ++ behind = '"' :: (field.1.toList.flatMap escaped ++
      '"' :: ':' :: ' ' :: ((write (depth + 1) field.2).toList ++ behind)) := by
  simp [fieldLine, toList_writeText]

private theorem readField_parts {readValue : List Char → Except Trouble (Json × List Char)} {name : String}
    {value : Json} {text behind : List Char} (named : readText text = .ok (name, ':' :: behind))
    (found : readValue (skipSpace behind) = .ok (value, rest)) :
    readField readValue ('"' :: text) = .ok ((name, value), rest) := by
  have colon : skipSpace (':' :: behind) = ':' :: behind := skipSpace_cons behind rfl
  simp [readField, named, colon, found, bind, Except.bind, pure, Except.pure]

private theorem readField_line {depth size : Nat} {field : String × Json} (returns : Returns field.2)
    (short : (fieldLine depth field).toList.length ≤ size) (stops : Stops rest) :
    readField (readValue size) (skipSpace ((fieldLine depth field).toList ++ rest)) = .ok (field, rest) := by
  have inside : (write (depth + 1) field.2).toList.length ≤ size := by
    simp only [fieldLine, String.toList_append, List.length_append] at short
    omega
  obtain ⟨first, more, opened, -, text⟩ := returns.opens (depth + 1) rest
  have found := returns (depth + 1) size rest inside stops
  rw [text, ← opened] at found
  rw [toList_fieldLine, skipSpace_cons _ rfl]
  refine readField_parts (readText_written field.1) ?_
  exact found

private theorem returns_string (text : String) : Returns (string text) := by
  refine .ofSucc (fun _ => ?_) fun _ size rest _ _ => ?_
  · simp [write, writeText]
  · rw [write, toList_writeText, readValue, readText_written]
    rfl

private theorem returns_array {items : List Json} (all : ∀ item ∈ items, Returns item) : Returns (array items) := by
  have begins : "[".toList = ['['] := by decide
  have ends : "]".toList = [']'] := by decide
  by_cases some_ : items = []
  · subst some_
    refine .ofText (fun _ => ?_) (List.cons_ne_nil '[' [']']) fun _ _ => rfl
    rw [write, bracketed, writeItems, List.isEmpty_nil, if_pos rfl, String.toList_append, begins, ends]
    rfl
  · refine .ofSucc (fun depth => ?_) fun depth size rest enough stops => ?_
    · simp [write, writeItems_eq, bracketed, some_]
    · rw [write, writeItems_eq] at enough ⊢
      have opens : ∀ item ∈ items, ∀ behind, ∃ c more,
          skipSpace ((write (depth + 1) item).toList ++ behind) = c :: more ∧ c ≠ ']' := by
        intro item member behind
        obtain ⟨c, more, opened, other, -⟩ := (all item member).opens (depth + 1) behind
        exact ⟨c, more, opened, other⟩
      have reads : ∀ item ∈ items, (write (depth + 1) item).toList.length ≤ size → ∀ rest, Stops rest →
          readValue size (skipSpace ((write (depth + 1) item).toList ++ rest)) = .ok (item, rest) := by
        intro item member short rest stops
        obtain ⟨c, more, opened, -, text⟩ := (all item member).opens (depth + 1) rest
        rw [opened, ← text]
        exact all item member (depth + 1) size rest short stops
      obtain ⟨inner, c, more, text, opened, other, read⟩ :=
        reads_bracketed begins ends rfl (by decide) some_ enough opens reads rest
      rw [text]
      exact readValue_items opened other read

private theorem returns_object {fields : List (String × Json)} (apart : (fields.map Prod.fst).Nodup)
    (all : ∀ field ∈ fields, Returns field.2) : Returns (object fields) := by
  have begins : "\x7b".toList = ['\x7b'] := by decide
  have ends : "\x7d".toList = ['\x7d'] := by decide
  by_cases some_ : fields = []
  · subst some_
    refine .ofText (fun _ => ?_) (List.cons_ne_nil '\x7b' ['\x7d']) fun _ _ => rfl
    rw [write, bracketed, writeFields, List.isEmpty_nil, if_pos rfl, String.toList_append, begins, ends]
    rfl
  · refine .ofSucc (fun depth => ?_) fun depth size rest enough stops => ?_
    · simp [write, writeFields_eq, bracketed, some_]
    · rw [write, writeFields_eq] at enough ⊢
      have opens : ∀ field ∈ fields, ∀ behind, ∃ c more,
          skipSpace ((fieldLine depth field).toList ++ behind) = c :: more ∧ c ≠ '\x7d' := by
        intro field member behind
        rw [toList_fieldLine]
        exact ⟨'"', _, skipSpace_cons _ rfl, by decide⟩
      obtain ⟨inner, c, more, text, opened, other, read⟩ :=
        reads_bracketed begins ends rfl (by decide) some_ enough opens
          (fun field member short rest stops => readField_line (all field member) short stops) rest
      rw [text]
      exact readValue_fields opened other apart read

private theorem returns_of_regular {value : Json} (regular : Regular value) : Returns value := by
  induction regular with
  | null => exact returns_null
  | bool truth => exact returns_bool truth
  | int short => exact returns_int short
  | float finite => exact returns_float finite
  | string text => exact returns_string text
  | array _ all => exact returns_array all
  | object apart _ all => exact returns_object apart all

theorem parse?_indented {value : Json} (regular : Regular value) : parse? value.indented = some value := by
  have returns := returns_of_regular regular
  obtain ⟨first, more, blank, -, text⟩ := returns.opens 0 []
  rw [← text, List.append_nil] at blank
  have found := returns 0 ((write 0 value).toList.length + 1) [] (Nat.le_succ _) nofun
  rw [List.append_nil] at found
  simp only [parse?, read, indented, blank, found, bind, Except.bind]
  rfl

end Values

end Cfpl.Json
