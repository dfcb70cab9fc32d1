import Mathlib
import WindowFold.Proofs.Rendering

/-! The tokens of a tidy node are built into the node again, so a document that
is written is read as what it was written of. -/
namespace WindowFold.Yaml
namespace Node

variable {handles : Handles} {fuel : Nat} {rest : List Token} {names : List (String × Nat)}

/-! ### Single tokens -/

theorem collection_none : Option.map (fun found : Node × Cursor =>
    (Properties.none.collection found.1, found.2)) = id := by
  funext found
  exact Option.map_id'

theorem readNode_scalar (dashes : Bool) (style : Style) (text : String) :
    readNode handles (fuel + 1) true dashes ⟨.scalar style text :: rest, names⟩ =
      some (.scalar style none text, ⟨rest, names⟩) := by
  rw [readNode]
  rfl

theorem readNode_sequenceStart (dashes : Bool) :
    readNode handles (fuel + 1) true dashes ⟨.sequenceStart :: rest, names⟩ =
      readItems handles fuel [] ⟨rest, names⟩ := by
  rw [readNode]
  exact congrFun collection_none _

theorem readNode_mappingStart (dashes : Bool) :
    readNode handles (fuel + 1) true dashes ⟨.mappingStart :: rest, names⟩ =
      readEntries handles fuel [] ⟨rest, names⟩ := by
  rw [readNode]
  exact congrFun collection_none _

theorem readNode_item :
    readNode handles (fuel + 1) true true ⟨.item :: rest, names⟩ =
      readDashes handles fuel [] ⟨.item :: rest, names⟩ := by
  rw [readNode]
  exact congrFun collection_none _

theorem readNode_flowSequence (dashes : Bool) :
    readNode handles (fuel + 2) true dashes ⟨.flowSequenceStart :: .flowSequenceEnd :: rest,
      names⟩ = some (.sequence [], ⟨rest, names⟩) := by
  rw [readNode]
  rfl

theorem readNode_flowMapping (dashes : Bool) :
    readNode handles (fuel + 2) true dashes ⟨.flowMappingStart :: .flowMappingEnd :: rest, names⟩ =
      some (.mapping [], ⟨rest, names⟩) := by
  rw [readNode]
  rfl

/-! ### Nodes -/

/-- What the tokens of a node begin with is not taken for a missing node. -/
theorem Tidy.head {node : Node} (tidy : node.Tidy) (dashes : Bool) :
    ∃ token later, node.tokens dashes = token :: later ∧
      token ∉ [Token.key, .value, .blockEnd] ∧ (token = .item → dashes = true) := by
  cases tidy with
  | plain | quoted => exact ⟨_, _, rfl, by simp, by rintro ⟨⟩⟩
  | @sequence items _ =>
    cases items with
    | nil => exact ⟨_, _, rfl, by simp, by rintro ⟨⟩⟩
    | cons item items =>
      cases dashes with
      | true => exact ⟨_, _, rfl, by simp, fun _ => rfl⟩
      | false => exact ⟨_, _, rfl, by simp, by rintro ⟨⟩⟩
  | @mapping entries _ _ =>
    cases entries with
    | nil => exact ⟨_, _, rfl, by simp, by rintro ⟨⟩⟩
    | cons => exact ⟨_, _, rfl, by simp, by rintro ⟨⟩⟩

theorem readUnless_tokens {node : Node} (tidy : node.Tidy) (dashes : Bool) {ends : List Token}
    (outer : ∀ token ∈ ends, token ∈ [Token.key, .value, .blockEnd] ∨
      token = .item ∧ dashes = false) :
    readUnless handles (fuel + 1) dashes ends ⟨node.tokens dashes ++ rest, names⟩ =
      readNode handles fuel true dashes ⟨node.tokens dashes ++ rest, names⟩ := by
  obtain ⟨token, later, same, other, dash⟩ := tidy.head dashes
  have absent : ends.contains token = false := by
    rw [List.contains_eq_mem, decide_eq_false_iff_not]
    intro member
    rcases outer token member with taken | ⟨rfl, none⟩
    · exact other taken
    · rw [dash rfl] at none
      cases none
  have begun : Cursor.at? ⟨node.tokens dashes ++ rest, names⟩ ends = false := by
    rw [Cursor.at?, same]
    exact absent
  rw [readUnless, begun, if_neg Bool.false_ne_true]

theorem readUnless_key {key : Node} (isKey : key.IsKey) :
    readUnless handles (fuel + 2) true [.key, .value, .blockEnd]
      ⟨key.tokens false ++ rest, names⟩ = some (key, ⟨rest, names⟩) := by
  obtain ⟨fits, some_, _⟩ := isKey
  exact (readUnless_tokens (.plain fits some_) true (by simp)).trans (readNode_scalar true _ _)

/-- With four rounds for each token, the tokens of the node are read as the node. -/
def Builds (handles : Handles) (node : Node) : Prop :=
  ∀ (dashes : Bool) (fuel : Nat) (rest : List Token) (names : List (String × Nat)),
    4 * (node.tokens dashes).length ≤ fuel → (dashes = true → rest.head? ≠ some .item) →
      readNode handles fuel true dashes ⟨node.tokens dashes ++ rest, names⟩ =
        some (node, ⟨rest, names⟩)

section Collections

variable {items : List Node} {entries : List (Node × Node)}

theorem readItems_tokens (tidy : ∀ item ∈ items, item.Tidy)
    (builds : ∀ item ∈ items, item.Builds handles) (some_ : 0 < fuel)
    (enough : 4 * (tokensOfItems items).length ≤ fuel + 1) (found : List Node) :
    readItems handles fuel found ⟨tokensOfItems items ++ .blockEnd :: rest, names⟩ =
      some (.sequence (found.reverse ++ items), ⟨rest, names⟩) := by
  induction items generalizing found fuel with
  | nil =>
    obtain ⟨fuel, rfl⟩ := Nat.exists_eq_add_of_le' some_
    rw [readItems, List.append_nil]
    rfl
  | cons item items ih =>
    obtain ⟨first, later⟩ := List.forall_mem_cons.1 builds
    obtain ⟨neat, others⟩ := List.forall_mem_cons.1 tidy
    simp only [tokensOfItems, List.length_append, List.length_cons] at enough
    obtain ⟨fuel, rfl⟩ := Nat.exists_eq_add_of_le' (show 2 ≤ fuel by omega)
    have read := first false fuel (tokensOfItems items ++ .blockEnd :: rest) names (by omega)
      (by rintro ⟨⟩)
    rw [readItems, tokensOfItems]
    simp only [List.cons_append, List.append_assoc, Cursor.next, List.drop_one, List.tail_cons]
    rw [readUnless_tokens neat false (by simp), read, Option.bind_some]
    rw [ih others later (Nat.succ_pos _) (by omega), List.reverse_cons, List.append_assoc,
      List.singleton_append]

/-- Items without an indentation of their own end where no dash follows. -/
theorem readDashes_tokens (tidy : ∀ item ∈ items, item.Tidy)
    (builds : ∀ item ∈ items, item.Builds handles) (some_ : 0 < fuel)
    (enough : 4 * (tokensOfItems items).length ≤ fuel + 1) (ends : rest.head? ≠ some .item)
    (found : List Node) :
    readDashes handles fuel found ⟨tokensOfItems items ++ rest, names⟩ =
      some (.sequence (found.reverse ++ items), ⟨rest, names⟩) := by
  induction items generalizing found fuel with
  | nil =>
    obtain ⟨fuel, rfl⟩ := Nat.exists_eq_add_of_le' some_
    rw [tokensOfItems, List.nil_append, List.append_nil, readDashes]
    cases rest with
    | nil => rfl
    | cons token rest =>
      cases token
      case item => exact absurd rfl ends
      all_goals rfl
  | cons item items ih =>
    obtain ⟨first, later⟩ := List.forall_mem_cons.1 builds
    obtain ⟨neat, others⟩ := List.forall_mem_cons.1 tidy
    simp only [tokensOfItems, List.length_append, List.length_cons] at enough
    obtain ⟨fuel, rfl⟩ := Nat.exists_eq_add_of_le' (show 2 ≤ fuel by omega)
    have read := first false fuel (tokensOfItems items ++ rest) names (by omega) (by rintro ⟨⟩)
    rw [readDashes, tokensOfItems]
    simp only [List.cons_append, List.append_assoc, Cursor.next, List.drop_one, List.tail_cons]
    rw [readUnless_tokens neat false (by simp), read, Option.bind_some]
    rw [ih others later (Nat.succ_pos _) (by omega), List.reverse_cons, List.append_assoc,
      List.singleton_append]

theorem readEntries_tokens (keys : ∀ entry ∈ entries, entry.1.IsKey)
    (tidy : ∀ entry ∈ entries, entry.2.Tidy)
    (builds : ∀ entry ∈ entries, entry.2.Builds handles) (some_ : 0 < fuel)
    (enough : 4 * (tokensOfEntries entries).length ≤ fuel + 1) (found : List (Node × Node)) :
    readEntries handles fuel found ⟨tokensOfEntries entries ++ .blockEnd :: rest, names⟩ =
      some (.mapping (found.reverse ++ entries), ⟨rest, names⟩) := by
  induction entries generalizing found fuel with
  | nil =>
    obtain ⟨fuel, rfl⟩ := Nat.exists_eq_add_of_le' some_
    rw [readEntries, List.append_nil]
    rfl
  | cons entry entries ih =>
    obtain ⟨first, later⟩ := List.forall_mem_cons.1 builds
    obtain ⟨neat, others⟩ := List.forall_mem_cons.1 tidy
    obtain ⟨key, laterKeys⟩ := List.forall_mem_cons.1 keys
    obtain ⟨_, value⟩ := entry
    dsimp only at first neat
    simp only [tokensOfEntries, tokensOfEntry, List.length_append, List.length_cons] at enough
    obtain ⟨fuel, rfl⟩ := Nat.exists_eq_add_of_le' (show 3 ≤ fuel by omega)
    have more : (tokensOfEntries entries ++ .blockEnd :: rest).head? ≠ some .item := by
      rcases entries with _ | ⟨⟨_, _⟩, _⟩ <;> simp [tokensOfEntries, tokensOfEntry]
    have read := first true (fuel + 1) (tokensOfEntries entries ++ .blockEnd :: rest) names
      (by omega) fun _ => more
    have colon : ∀ later names, Cursor.at? ⟨.value :: later, names⟩ [.value] = true :=
      fun _ _ => rfl
    rw [readEntries, tokensOfEntries, tokensOfEntry]
    simp only [List.cons_append, List.append_assoc, Cursor.next, List.drop_one, List.tail_cons]
    rw [readUnless_key key]
    simp only [colon, if_true, List.tail_cons]
    rw [readUnless_tokens neat true (by simp), read, Option.bind_some]
    rw [ih laterKeys others later (Nat.succ_pos _) (by omega), List.reverse_cons,
      List.append_assoc, List.singleton_append]

end Collections

theorem builds_sequence {items : List Node} (tidy : ∀ item ∈ items, item.Tidy)
    (builds : ∀ item ∈ items, item.Builds handles) : (sequence items).Builds handles := by
  intro dashes fuel rest names enough ends
  cases items with
  | nil =>
    obtain ⟨fuel, rfl⟩ := Nat.exists_eq_add_of_le' (show 8 ≤ fuel from enough)
    exact readNode_flowSequence dashes
  | cons item items =>
    cases dashes with
    | true =>
      have same : (Node.sequence (item :: items)).tokens true = tokensOfItems (item :: items) := rfl
      rw [same] at enough ⊢
      have long : 0 < (tokensOfItems (item :: items)).length := Nat.succ_pos _
      obtain ⟨fuel, rfl⟩ := Nat.exists_eq_add_of_le' (show 1 ≤ fuel by omega)
      exact readNode_item.trans (readDashes_tokens tidy builds (by omega) enough (ends rfl) [])
    | false =>
      have same : (Node.sequence (item :: items)).tokens false ++ rest =
          .sequenceStart :: (tokensOfItems (item :: items) ++ .blockEnd :: rest) := by
        simp [Node.tokens]
      have count : ((Node.sequence (item :: items)).tokens false).length =
          (tokensOfItems (item :: items)).length + 2 := by
        simp [Node.tokens]
      rw [count] at enough
      obtain ⟨fuel, rfl⟩ := Nat.exists_eq_add_of_le' (show 1 ≤ fuel by omega)
      rw [same, readNode_sequenceStart]
      exact readItems_tokens tidy builds (by omega) (by omega) []

theorem builds_mapping {entries : List (Node × Node)} (keys : ∀ entry ∈ entries, entry.1.IsKey)
    (tidy : ∀ entry ∈ entries, entry.2.Tidy)
    (builds : ∀ entry ∈ entries, entry.2.Builds handles) : (mapping entries).Builds handles := by
  intro dashes fuel rest names enough ends
  cases entries with
  | nil =>
    obtain ⟨fuel, rfl⟩ := Nat.exists_eq_add_of_le' (show 8 ≤ fuel from enough)
    exact readNode_flowMapping dashes
  | cons entry entries =>
    have same : (Node.mapping (entry :: entries)).tokens dashes ++ rest =
        .mappingStart :: (tokensOfEntries (entry :: entries) ++ .blockEnd :: rest) := by
      simp [Node.tokens]
    have count : ((Node.mapping (entry :: entries)).tokens dashes).length =
        (tokensOfEntries (entry :: entries)).length + 2 := by
      simp [Node.tokens]
    rw [count] at enough
    obtain ⟨fuel, rfl⟩ := Nat.exists_eq_add_of_le' (show 1 ≤ fuel by omega)
    rw [same, readNode_mappingStart]
    exact readEntries_tokens keys tidy builds (by omega) (by omega) []

theorem Tidy.builds {node : Node} (tidy : node.Tidy) (handles : Handles) : node.Builds handles := by
  induction tidy with
  | plain | quoted =>
    intro dashes fuel rest names enough _
    obtain ⟨fuel, rfl⟩ := Nat.exists_eq_add_of_le' (show 4 ≤ fuel from enough)
    exact readNode_scalar dashes _ _
  | sequence tidy ih => exact builds_sequence tidy ih
  | mapping keys values ih => exact builds_mapping keys values ih

/-- A tidy mapping that is written as a document is read as itself. -/
theorem readDocument_render {entries : List (Node × Node)} (some_ : entries ≠ [])
    (tidy : (Node.mapping entries).Tidy) :
    readDocument (Node.mapping entries).render = some (.mapping entries) := by
  obtain ⟨entry, entries, rfl⟩ := List.exists_cons_of_ne_nil some_
  have same : (Node.mapping (entry :: entries)).tokens false =
      .mappingStart :: (tokensOfEntries (entry :: entries) ++ [.blockEnd]) := by
    simp [Node.tokens]
  have read := tidy.builds Handles.usual false
    (4 * ((Node.mapping (entry :: entries)).tokens false).length + 4) [] [] (Nat.le_add_right _ _)
    (by rintro ⟨⟩)
  rw [readDocument, tokens_render some_ tidy, Option.bind_some]
  rw [List.append_nil, same] at read
  rw [same, readRoot]
  · simp only [List.isEmpty_cons, Bool.false_and, Bool.false_eq_true, if_false, read, List.all_nil,
      if_true]
  all_goals simp

end Node
end WindowFold.Yaml
