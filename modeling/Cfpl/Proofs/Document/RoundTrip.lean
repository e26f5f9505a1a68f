import Cfpl.Proofs.Document.Codec

/-! Programs to be run against their documents. A program goes into a document and out of it unchanged, and
what comes out of a document is what goes into one. -/

namespace Cfpl.Document

section Lifted

variable {α β : Type} {read? : α → Option β} {write : β → α}

private theorem mapM_option_map (back : ∀ b, read? (write b) = some b) (b : Option β) :
    (b.map write).mapM read? = some b := by
  cases b <;> simp [back]

private theorem mapM_list_map (back : ∀ b, read? (write b) = some b) (bs : List β) :
    (bs.map write).mapM read? = some bs := by
  induction bs with
  | nil => rfl
  | cons b bs ih => simp [back, ih]

variable (known : ∀ {a b}, read? a = some b → write b = a)
include known

private theorem map_of_mapM_option {a : Option α} {b : Option β} (read : a.mapM read? = some b) :
    b.map write = a := by
  cases a with
  | none =>
    cases read
    rfl
  | some a =>
    obtain ⟨held, found, rfl⟩ := Option.map_eq_some_iff.mp read
    rw [Option.map_some, known found]

private theorem map_of_mapM_list {as : List α} {bs : List β} (read : as.mapM read? = some bs) :
    bs.map write = as := by
  induction as generalizing bs with
  | nil =>
    cases read
    rfl
  | cons a as ih =>
    simp only [List.mapM_cons, Option.bind_eq_bind, Option.bind_eq_some_iff] at read
    obtain ⟨b, found, others, foundOthers, made⟩ := read
    cases made
    rw [List.map_cons, known found, ih foundOthers]

end Lifted

namespace Datum

private theorem value?_ofValue (value : Value) : (ofValue value).value? = some value := by
  cases value <;> simp [ofValue, value?, plainValue?]

private theorem ofValue_of_value? {datum : Datum} {value : Value} (known : datum.value? = some value) :
    ofValue value = datum := by
  cases datum with
  | float x =>
    cases known
    rfl
  | plain kind other data =>
    change plainValue? kind data = some value at known
    unfold plainValue? at known
    split at known
    · cases known; rfl
    · next text =>
      split at known
      · next c only =>
        cases known
        obtain rfl : String.singleton c = text := String.toList_inj.mp (by simp [only])
        rfl
      · cases known
    · cases known; rfl
    · cases known; rfl
    · cases known; rfl
    · cases known

end Datum

namespace Mark

private theorem token?_ofToken (token : Token) : (ofToken token).token? = some token := by
  have literal := mapM_option_map Datum.value?_ofValue token.literal
  simp [ofToken, token?, literal]

private theorem ofToken_of_token? {mark : Mark} {token : Token} (known : mark.token? = some token) :
    ofToken token = mark := by
  obtain ⟨symbol, lexeme, literal, line⟩ := mark
  unfold token? at known
  split at known
  · next text number isText isNumber =>
    obtain ⟨value, read, made⟩ := Option.bind_eq_some_iff.mp known
    cases made
    obtain rfl : lexeme = .string text := isText
    obtain rfl : line = .int number := isNumber
    simp only [ofToken, map_of_mapM_option Datum.ofValue_of_value? read]
  · cases known

end Mark

namespace Tree

open Mark (token?_ofToken ofToken_of_token?)

mutual

private theorem ofNode?_of_node? : ∀ {tree : Tree} {node : Node}, tree.node? = some node → ofNode? node = some tree
  | .absent, _, known => by
    cases known
    rfl
  | .list _, _, known => by
    simp only [node?, Option.bind_eq_bind, Option.bind_eq_some_iff] at known
    obtain ⟨items, read, made⟩ := known
    cases made
    simp [ofNode?, ofNodes?_of_nodes? read]
  | .expression _, _, known => by
    simp only [node?, Option.bind_eq_bind, Option.bind_eq_some_iff] at known
    obtain ⟨body, read, made⟩ := known
    cases made
    simp [ofNode?, ofNode?_of_node? read]
  | .output _, _, known => by
    simp only [node?, Option.bind_eq_bind, Option.bind_eq_some_iff] at known
    obtain ⟨body, read, made⟩ := known
    cases made
    simp [ofNode?, ofNode?_of_node? read]
  | .declare _ _ _, _, known => by
    simp only [node?, Option.bind_eq_bind, Option.bind_eq_some_iff] at known
    obtain ⟨name, readName, initial, readInitial, dataType, readType, made⟩ := known
    cases made
    simp [ofNode?, ofToken_of_token? readName, ofNode?_of_node? readInitial,
      map_of_mapM_option ofToken_of_token? readType]
  | .block _, _, known => by
    simp only [node?, Option.bind_eq_bind, Option.bind_eq_some_iff] at known
    obtain ⟨body, read, made⟩ := known
    cases made
    simp [ofNode?, ofNodes?_of_nodes? read]
  | .input _, _, known => by
    simp only [node?, Option.bind_eq_bind, Option.bind_eq_some_iff] at known
    obtain ⟨names, read, made⟩ := known
    cases made
    simp [ofNode?, map_of_mapM_list ofToken_of_token? read]
  | .branch _ _ _, _, known => by
    simp only [node?, Option.bind_eq_bind, Option.bind_eq_some_iff] at known
    obtain ⟨condition, read, thenBranch, readThen, elseBranch, readElse, made⟩ := known
    cases made
    simp [ofNode?, ofNode?_of_node? read, ofNode?_of_node? readThen, ofNode?_of_node? readElse]
  | .loop _ _, _, known => by
    simp only [node?, Option.bind_eq_bind, Option.bind_eq_some_iff] at known
    obtain ⟨condition, read, body, readBody, made⟩ := known
    cases made
    simp [ofNode?, ofNode?_of_node? read, ofNode?_of_node? readBody]
  | .literal _, _, known => by
    simp only [node?, Option.bind_eq_bind, Option.bind_eq_some_iff] at known
    obtain ⟨value, read, made⟩ := known
    cases made
    simp [ofNode?, Datum.ofValue_of_value? read]
  | .grouping _, _, known => by
    simp only [node?, Option.bind_eq_bind, Option.bind_eq_some_iff] at known
    obtain ⟨body, read, made⟩ := known
    cases made
    simp [ofNode?, ofNode?_of_node? read]
  | .unary _ _, _, known => by
    simp only [node?, Option.bind_eq_bind, Option.bind_eq_some_iff] at known
    obtain ⟨operator, read, right, readRight, made⟩ := known
    cases made
    simp [ofNode?, ofToken_of_token? read, ofNode?_of_node? readRight]
  | .binary _ _ _, _, known => by
    simp only [node?, Option.bind_eq_bind, Option.bind_eq_some_iff] at known
    obtain ⟨left, readLeft, operator, read, right, readRight, made⟩ := known
    cases made
    simp [ofNode?, ofNode?_of_node? readLeft, ofToken_of_token? read, ofNode?_of_node? readRight]
  | .logical _ _ _, _, known => by
    simp only [node?, Option.bind_eq_bind, Option.bind_eq_some_iff] at known
    obtain ⟨left, readLeft, operator, read, right, readRight, made⟩ := known
    cases made
    simp [ofNode?, ofNode?_of_node? readLeft, ofToken_of_token? read, ofNode?_of_node? readRight]
  | .reference _, _, known => by
    simp only [node?, Option.bind_eq_bind, Option.bind_eq_some_iff] at known
    obtain ⟨name, read, made⟩ := known
    cases made
    simp [ofNode?, ofToken_of_token? read]
  | .assign _ _, _, known => by
    simp only [node?, Option.bind_eq_bind, Option.bind_eq_some_iff] at known
    obtain ⟨name, read, value, readValue, made⟩ := known
    cases made
    simp [ofNode?, ofToken_of_token? read, ofNode?_of_node? readValue]

private theorem ofNodes?_of_nodes? : ∀ {trees : List Tree} {nodes : List Node},
    nodes? trees = some nodes → ofNodes? nodes = some trees
  | [], _, known => by
    cases known
    rfl
  | _ :: _, _, known => by
    simp only [nodes?, Option.bind_eq_bind, Option.bind_eq_some_iff] at known
    obtain ⟨first, read, others, readOthers, made⟩ := known
    cases made
    simp [ofNodes?, ofNode?_of_node? read, ofNodes?_of_nodes? readOthers]

end

mutual

private theorem node?_of_ofNode? : ∀ {node : Node} {tree : Tree}, ofNode? node = some tree → tree.node? = some node
  | .absent, _, known => by
    cases known
    rfl
  | .list _, _, known => by
    simp only [ofNode?, Option.bind_eq_bind, Option.bind_eq_some_iff] at known
    obtain ⟨items, written, made⟩ := known
    cases made
    simp [node?, nodes?_of_ofNodes? written]
  | .expression _, _, known => by
    simp only [ofNode?, Option.bind_eq_bind, Option.bind_eq_some_iff] at known
    obtain ⟨body, written, made⟩ := known
    cases made
    simp [node?, node?_of_ofNode? written]
  | .output _, _, known => by
    simp only [ofNode?, Option.bind_eq_bind, Option.bind_eq_some_iff] at known
    obtain ⟨body, written, made⟩ := known
    cases made
    simp [node?, node?_of_ofNode? written]
  | .declare _ _ dataType, _, known => by
    simp only [ofNode?, Option.bind_eq_bind, Option.bind_eq_some_iff] at known
    obtain ⟨initial, written, made⟩ := known
    cases made
    simp [node?, token?_ofToken, node?_of_ofNode? written, mapM_option_map token?_ofToken dataType]
  | .block _, _, known => by
    simp only [ofNode?, Option.bind_eq_bind, Option.bind_eq_some_iff] at known
    obtain ⟨body, written, made⟩ := known
    cases made
    simp [node?, nodes?_of_ofNodes? written]
  | .input names, _, known => by
    cases known
    simp only [node?, mapM_list_map token?_ofToken names]
    rfl
  | .branch _ _ _, _, known => by
    simp only [ofNode?, Option.bind_eq_bind, Option.bind_eq_some_iff] at known
    obtain ⟨condition, written, thenBranch, writtenThen, elseBranch, writtenElse, made⟩ := known
    cases made
    simp [node?, node?_of_ofNode? written, node?_of_ofNode? writtenThen, node?_of_ofNode? writtenElse]
  | .loop _ _, _, known => by
    simp only [ofNode?, Option.bind_eq_bind, Option.bind_eq_some_iff] at known
    obtain ⟨condition, written, body, writtenBody, made⟩ := known
    cases made
    simp [node?, node?_of_ofNode? written, node?_of_ofNode? writtenBody]
  | .literal _, _, known => by
    simp only [ofNode?, Option.map_eq_some_iff] at known
    obtain ⟨value, rfl, made⟩ := known
    cases made
    simp [node?, Datum.value?_ofValue]
  | .grouping _, _, known => by
    simp only [ofNode?, Option.bind_eq_bind, Option.bind_eq_some_iff] at known
    obtain ⟨body, written, made⟩ := known
    cases made
    simp [node?, node?_of_ofNode? written]
  | .unary _ _, _, known => by
    simp only [ofNode?, Option.bind_eq_bind, Option.bind_eq_some_iff] at known
    obtain ⟨right, written, made⟩ := known
    cases made
    simp [node?, token?_ofToken, node?_of_ofNode? written]
  | .binary _ _ _, _, known => by
    simp only [ofNode?, Option.bind_eq_bind, Option.bind_eq_some_iff] at known
    obtain ⟨left, written, right, writtenRight, made⟩ := known
    cases made
    simp [node?, node?_of_ofNode? written, token?_ofToken, node?_of_ofNode? writtenRight]
  | .logical _ _ _, _, known => by
    simp only [ofNode?, Option.bind_eq_bind, Option.bind_eq_some_iff] at known
    obtain ⟨left, written, right, writtenRight, made⟩ := known
    cases made
    simp [node?, node?_of_ofNode? written, token?_ofToken, node?_of_ofNode? writtenRight]
  | .reference _, _, known => by
    cases known
    simp [node?, token?_ofToken]
  | .assign _ _, _, known => by
    simp only [ofNode?, Option.bind_eq_bind, Option.bind_eq_some_iff] at known
    obtain ⟨value, written, made⟩ := known
    cases made
    simp [node?, token?_ofToken, node?_of_ofNode? written]

private theorem nodes?_of_ofNodes? : ∀ {nodes : List Node} {trees : List Tree},
    ofNodes? nodes = some trees → nodes? trees = some nodes
  | [], _, known => by
    cases known
    rfl
  | _ :: _, _, known => by
    simp only [ofNodes?, Option.bind_eq_bind, Option.bind_eq_some_iff] at known
    obtain ⟨first, written, others, writtenOthers, made⟩ := known
    cases made
    simp [nodes?, node?_of_ofNode? written, nodes?_of_ofNodes? writtenOthers]

end

end Tree

theorem statements_of_ofStatements? {nodes : List Node} {document : Json}
    (written : ofStatements? nodes = some document) : statements document = .ok nodes := by
  obtain ⟨trees, known, rfl⟩ := Option.map_eq_some_iff.mp written
  simp [statements, checked, program_ofProgram, Tree.nodes?_of_ofNodes? known]
  rfl

private theorem statements_cases {nodes : List Node} {document : Json} (read : statements document = .ok nodes) :
    ∃ trees, program document = .ok trees ∧ Tree.nodes? trees = some nodes := by
  unfold statements checked at read
  cases found : program document with
  | error flaw =>
    rw [found] at read
    cases read
  | ok trees =>
    rw [found, ok_bind] at read
    split at read
    · next result known =>
      cases read
      exact ⟨trees, rfl, known⟩
    · cases read

/-- Every program is read back from its document. Whatever document a program was read from, with fields
that are missing or superfluous and with doubles in any spelling, the document written of it is read as the
same program. So it is for statements to be run. -/
theorem documents_read_back :
    (∀ trees, program (ofProgram trees) = .ok trees) ∧
      (∀ document trees, program document = .ok trees → program (ofProgram trees) = program document) ∧
      (∀ nodes document, ofStatements? nodes = some document → statements document = .ok nodes) ∧
      ∀ document nodes, statements document = .ok nodes →
        ∃ written, ofStatements? nodes = some written ∧ statements written = .ok nodes := by
  refine ⟨program_ofProgram, fun document trees read => ?_, fun _ _ => statements_of_ofStatements?,
    fun document nodes read => ?_⟩
  · rw [program_ofProgram, read]
  · obtain ⟨trees, _, known⟩ := statements_cases read
    have written : ofStatements? nodes = some (ofProgram trees) := by
      unfold ofStatements?
      rw [Tree.ofNodes?_of_nodes? known, Option.map_some]
    exact ⟨_, written, statements_of_ofStatements? written⟩

def sparse : Json :=
  .object [("note", .null), ("type", .string "Program"), ("body", .array [.null, .object [
    ("type", .string "Print"), ("expression", .object [("type", .string "Literal"),
      ("value", .object [("data", .string " -Infinity "), ("kind", .string "FLOAT")])])]])]

theorem sparse_reads_back : program sparse = .ok [.absent, .output (.literal (.float Decimal.infinity.neg))] ∧
    program (ofProgram [.absent, .output (.literal (.float Decimal.infinity.neg))]) = program sparse := by
  have spelled : Decimal.read? " -Infinity " = some Decimal.infinity.neg := by decide +kernel
  have kind : named Kind.ofLabel? (.string "FLOAT") = .ok .float := named_string (Kind.ofLabel?_label .float)
  have read : program sparse = .ok [.absent, .output (.literal (.float Decimal.infinity.neg))] := by
    simp [sparse, program, items, trees, tree, treeOf, children, datum, kind, float, spelled]
  exact ⟨read, documents_read_back.2.1 sparse _ read⟩

end Cfpl.Document
