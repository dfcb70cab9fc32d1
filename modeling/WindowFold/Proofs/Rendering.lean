import Mathlib
import WindowFold.Proofs.Lexing

/-! The lines of a tidy node are cut into its tokens: one without tags, names and
text of several lines. The induction is on the node; of the lines before it, only
the columns of the collections around it matter, and of the line behind it, only
its indentation. -/
namespace WindowFold.Yaml
open Lexer

namespace Node

mutual

/-- The tokens that a node is written as. A sequence that stands where the keys
around it do has no beginning and no end. -/
def tokens (dashes : Bool) : Node → List Token
  | scalar style _ text => [.scalar style text]
  | sequence items =>
    if items.isEmpty then [.flowSequenceStart, .flowSequenceEnd]
    else if dashes then tokensOfItems items
    else .sequenceStart :: tokensOfItems items ++ [.blockEnd]
  | mapping entries =>
    if entries.isEmpty then [.flowMappingStart, .flowMappingEnd]
    else .mappingStart :: tokensOfEntries entries ++ [.blockEnd]
  | tagged _ node | numbered _ node => node.tokens dashes
  | repetition number => [.repetition (toString number)]

def tokensOfItems : List Node → List Token
  | [] => []
  | item :: items => .item :: item.tokens false ++ tokensOfItems items

def tokensOfEntries : List (Node × Node) → List Token
  | [] => []
  | entry :: entries => tokensOfEntry entry ++ tokensOfEntries entries

def tokensOfEntry : Node × Node → List Token
  | (key, value) => .key :: key.tokens false ++ .value :: value.tokens true

end

/-- Plain text that is short enough for a key. -/
inductive IsKey : Node → Prop
  | plain {text : String} (fits : fitsPlain text.toList = true) (some_ : text ≠ "")
      (short : (text.toList.map Char.utf8Size).sum ≤ 1024) : IsKey (.scalar .plain none text)

/-- A node without tags and names, whose scalars are plain or are one quoted line. -/
inductive Tidy : Node → Prop
  | plain {text : String} (fits : fitsPlain text.toList = true) (some_ : text ≠ "") :
      Tidy (.scalar .plain none text)
  | quoted {text : String} (shown : ∀ c ∈ text.toList, isShown c = true) :
      Tidy (.scalar .quoted none text)
  | sequence {items : List Node} (tidy : ∀ item ∈ items, Tidy item) : Tidy (.sequence items)
  | mapping {entries : List (Node × Node)} (keys : ∀ entry ∈ entries, IsKey entry.1)
      (values : ∀ entry ∈ entries, Tidy entry.2) : Tidy (.mapping entries)

/-! ### First signs -/

theorem writeItems_cons (column : Nat) (item : Node) (items : List Node) :
    writeItems column true (item :: items) =
      '-' :: ' ' :: (item.write (column + 2) ++ writeItems column false items) := by
  simp [writeItems]

theorem writeEntries_cons (column : Nat) (entry : Node × Node) (entries : List (Node × Node)) :
    writeEntries column true (entry :: entries) =
      writeEntry column entry ++ writeEntries column false entries := by
  simp [writeEntries]

/-- Later items and entries are indented. -/
theorem writeItems_next (column : Nat) (item : Node) (items : List Node) :
    writeItems column false (item :: items) =
      blanks column ++ writeItems column true (item :: items) := by
  simp [writeItems]

theorem writeEntries_next (column : Nat) (entry : Node × Node) (entries : List (Node × Node)) :
    writeEntries column false (entry :: entries) =
      blanks column ++ writeEntries column true (entry :: entries) := by
  simp [writeEntries]

theorem begins_plain {cs : List Char} (fits : fitsPlain cs = true) (some_ : cs ≠ [])
    (tail : List Char) : Begins (cs ++ tail) := by
  obtain ⟨shown, head, _, start, _⟩ := of_fitsPlain fits
  obtain ⟨c, rest, rfl⟩ := List.exists_cons_of_ne_nil some_
  obtain ⟨_, _, _, reserved, _⟩ := of_hasStartSign start
  rintro _ ⟨⟩
  refine ⟨shown c List.mem_cons_self, ?_, ?_⟩
  · rintro rfl
    exact head rfl
  · rintro rfl
    exact reserved (by decide)

theorem begins_sign {c : Char} (sign : isShown c = true ∧ c ≠ ' ' ∧ c ≠ '#') (rest : List Char) :
    Begins (c :: rest) := by
  rintro _ ⟨⟩
  exact sign

theorem IsKey.begins {key : Node} (isKey : key.IsKey) (column : Nat) (value : Node)
    (tail : List Char) : Begins (writeEntry column (key, value) ++ tail) := by
  obtain ⟨fits, some_, _⟩ := isKey
  rw [writeEntry]
  simp only [List.append_assoc]
  exact begins_plain fits (by simpa using some_) _

theorem Tidy.begins {node : Node} (tidy : node.Tidy) (column : Nat) (tail : List Char) :
    Begins (node.write column ++ tail) := by
  cases tidy with
  | plain fits some_ =>
    rw [write, writeScalar]
    simp only [List.append_assoc]
    exact begins_plain fits (by simpa using some_) _
  | quoted shown =>
    rw [write, writeScalar]
    simp only [fitsSingle_of_shown shown, if_true]
    exact begins_sign (by decide) _
  | @sequence items _ =>
    rw [write]
    cases items with
    | nil => exact begins_sign (by decide) _
    | cons item items => exact begins_sign (by decide) _
  | @mapping entries keys _ =>
    rw [write]
    cases entries with
    | nil => exact begins_sign (by decide) _
    | cons entry entries =>
      rw [List.isEmpty_cons, if_neg Bool.false_ne_true, writeEntries_cons, List.append_assoc]
      exact (keys entry List.mem_cons_self).begins column entry.2 _

/-! ### Tokens of the lines -/

/-- Where a node may begin within a collection at column `d`. What takes several
lines begins at its own column, deeper than `d` unless it stands where the keys do. -/
def Stands (dashes : Bool) (column d : Nat) (p : Position) (keyAllowed : Bool) : Node → Prop
  | sequence (_ :: _) =>
    p.column = column ∧ keyAllowed = true ∧ if dashes then d = column else d < column
  | mapping (_ :: _) => p.column = column ∧ keyAllowed = true ∧ d < column
  | _ => d < p.column

/-- The lexer reads the lines of the node as its tokens, up to a line that the
collection at column `d`, or one around it, goes on with. -/
def Lexes (node : Node) : Prop :=
  ∀ {dashes : Bool} {column d count : Nat} {columns : List Nat} {tokens : List Token}
    {p : Position} {keyAllowed : Bool} {line : List Char},
    node.Stands dashes column d p keyAllowed → count ≤ d → Begins line →
      ∃ q : Position, q.column = count ∧
        Leads (outside ⟨node.write column ++ (blanks count ++ line), p⟩ tokens (d :: columns) none
            keyAllowed)
          (outside ⟨line, q⟩ ((node.tokens dashes).reverse ++ tokens) (d :: columns) none true).shut

/-- An item stands two columns behind its dash. -/
theorem stands_item (item : Node) {column : Nat} {p : Position} (behind : p.column = column + 2) :
    item.Stands false (column + 2) column p true := by
  have deep : column < p.column := by omega
  have within : column < column + 2 := Nat.lt_add_of_pos_right two_pos
  cases item with
  | sequence items =>
    cases items with
    | nil => exact deep
    | cons => exact ⟨behind, rfl, within⟩
  | mapping entries =>
    cases entries with
    | nil => exact deep
    | cons => exact ⟨behind, rfl, within⟩
  | _ => exact deep

theorem endsWord_lead (value : Node) (column : Nat) (rest : List Char) :
    endsWord ((value.lead column).1 ++ rest) = true := by
  cases value with
  | sequence items => cases items <;> rfl
  | mapping entries => cases entries <;> rfl
  | _ => rfl

/-- A value stands behind the blank or the line break after its colon. -/
theorem exists_lead (value : Node) {column : Nat} {r : Position} (key : column ≤ r.column)
    {rest : List Char} (begins : Begins rest) :
    ∃ (p : Position) (keyAllowed : Bool),
      skipGap false ((value.lead column).1 ++ rest) r false false = (⟨rest, p⟩, keyAllowed) ∧
        column ≤ p.column ∧ value.Stands true (value.lead column).2 column p keyAllowed := by
  have sameLine : ∃ (p : Position) (keyAllowed : Bool),
      skipGap false ([' '] ++ rest) r false false = (⟨rest, p⟩, keyAllowed) ∧ column < p.column :=
    ⟨_, _, skipGap_blanks begins 1 r false, Nat.lt_succ_of_le key⟩
  have newLine : ∀ deeper : Nat, ∃ p : Position,
      skipGap false (('\n' :: blanks (column + deeper)) ++ rest) r false false =
        (⟨rest, p⟩, true) ∧ p.column = column + deeper := by
    intro deeper
    exact ⟨_, skipGap_newLine begins (column + deeper) r false,
      (r.past_newLine (column + deeper)).1⟩
  obtain ⟨p, keyAllowed, gap, deep⟩ := sameLine
  cases value with
  | sequence items =>
    cases items with
    | nil => exact ⟨p, keyAllowed, gap, deep.le, deep⟩
    | cons =>
      obtain ⟨p, gap, under⟩ := newLine 0
      exact ⟨p, true, gap, under.ge, under, rfl, rfl⟩
  | mapping entries =>
    cases entries with
    | nil => exact ⟨p, keyAllowed, gap, deep.le, deep⟩
    | cons =>
      obtain ⟨p, gap, under⟩ := newLine 2
      exact ⟨p, true, gap, (Nat.le_add_right _ _).trans under.ge, under, rfl,
        Nat.lt_add_of_pos_right two_pos⟩
  | _ => exact ⟨p, keyAllowed, gap, deep.le, deep⟩

section Collections

variable {column count : Nat} {columns opened : List Nat} {tokens begun : List Token}
  {p : Position} {line : List Char}

theorem leads_items {items : List Node} (some_ : items ≠ []) (lexes : ∀ item ∈ items, item.Lexes)
    (tidy : ∀ item ∈ items, item.Tidy)
    (opens : Opens column .sequenceStart columns tokens opened begun) (stands : p.column = column)
    (within : count ≤ column) (begins : Begins line) :
    ∃ q : Position, q.column = count ∧
      Leads (outside ⟨writeItems column true items ++ (blanks count ++ line), p⟩ tokens columns none
          true)
        (outside ⟨line, q⟩ ((tokensOfItems items).reverse ++ begun) opened none true).shut := by
  induction items generalizing columns tokens begun p with
  | nil => exact absurd rfl some_
  | cons item items ih =>
    obtain ⟨first, later⟩ := List.forall_mem_cons.1 lexes
    obtain ⟨neat, tidy⟩ := List.forall_mem_cons.1 tidy
    have dash := leads_dash opens stands
      (neat.begins (column + 2) (writeItems column false items ++ (blanks count ++ line)))
    have behind : ((p.after '-').after ' ').column = column + 2 := by
      rw [← stands]
      rfl
    have place := item.stands_item behind
    obtain ⟨outer, rfl⟩ := opens.opened_eq
    rw [writeItems_cons, List.cons_append, List.cons_append, List.append_assoc]
    cases items with
    | nil =>
      obtain ⟨q, stands, leads⟩ := first place within begins
      refine ⟨q, stands, ?_⟩
      have same : (tokensOfItems [item]).reverse ++ begun =
          (item.tokens false).reverse ++ .item :: begun := by
        simp [tokensOfItems]
      rw [same]
      exact dash.trans leads
    | cons next items =>
      -- The next item goes on with the sequence, so its column stays open.
      have sign : Begins (writeItems column true (next :: items) ++ (blanks count ++ line)) :=
        begins_sign (by decide) _
      obtain ⟨r, under, leads⟩ := first place le_rfl sign
      rw [shut_kept (by rintro _ ⟨⟩; exact under.ge)] at leads
      obtain ⟨q, stands, rest⟩ := ih (List.cons_ne_nil _ _) later tidy (.already outer _) under
      refine ⟨q, stands, ?_⟩
      have same : (tokensOfItems (item :: next :: items)).reverse ++ begun =
          (tokensOfItems (next :: items)).reverse ++
            ((item.tokens false).reverse ++ .item :: begun) := by
        rw [tokensOfItems]
        simp
      rw [same, writeItems_next, List.append_assoc]
      rw [writeItems_next, List.append_assoc] at dash
      exact dash.trans (leads.trans rest)

theorem leads_entry {key value : Node} (isKey : key.IsKey) (lexes : value.Lexes)
    (tidy : value.Tidy) (opens : Opens column .mappingStart columns tokens opened begun)
    (stands : p.column = column) (within : count ≤ column) (begins : Begins line) :
    ∃ q : Position, q.column = count ∧
      Leads (outside ⟨writeEntry column (key, value) ++ (blanks count ++ line), p⟩ tokens columns
          none true)
        (outside ⟨line, q⟩ ((tokensOfEntry (key, value)).reverse ++ begun) opened none
          true).shut := by
  obtain @⟨text, fits, some_, short⟩ := isKey
  obtain ⟨outer, rfl⟩ := opens.opened_eq
  have written : writeEntry column (.scalar .plain none text, value) ++ (blanks count ++ line) =
      text.toList ++ ':' :: ((value.lead column).1 ++
        (value.write (value.lead column).2 ++ (blanks count ++ line))) := by
    simp [writeEntry, text?]
  have behind : column ≤ ((p.past text.toList).after ':').column := by
    obtain ⟨shown, _⟩ := of_fitsPlain fits
    rw [Position.past_inLine fun c member => isBreak_of_shown (shown c member), ← stands]
    exact (Nat.le_add_right _ _).trans (Nat.le_succ _)
  obtain ⟨v, keyAllowed, gap, deep, place⟩ :=
    value.exists_lead behind (tidy.begins (value.lead column).2 (blanks count ++ line))
  have name := leads_key opens stands fits some_ short (endsWord_lead value column _) gap deep
    (List.suffix_append _ _).length_le
  obtain ⟨q, under, leads⟩ := lexes place within begins
  refine ⟨q, under, ?_⟩
  have same : (tokensOfEntry (.scalar .plain none text, value)).reverse ++ begun =
      (value.tokens true).reverse ++ .value :: .scalar .plain text :: .key :: begun := by
    simp [tokensOfEntry, Node.tokens]
  rw [same, written]
  exact name.trans leads

theorem leads_entries {entries : List (Node × Node)} (some_ : entries ≠ [])
    (keys : ∀ entry ∈ entries, entry.1.IsKey) (lexes : ∀ entry ∈ entries, entry.2.Lexes)
    (tidy : ∀ entry ∈ entries, entry.2.Tidy)
    (opens : Opens column .mappingStart columns tokens opened begun) (stands : p.column = column)
    (within : count ≤ column) (begins : Begins line) :
    ∃ q : Position, q.column = count ∧
      Leads (outside ⟨writeEntries column true entries ++ (blanks count ++ line), p⟩ tokens columns
          none true)
        (outside ⟨line, q⟩ ((tokensOfEntries entries).reverse ++ begun) opened none true).shut := by
  induction entries generalizing columns tokens begun p with
  | nil => exact absurd rfl some_
  | cons entry entries ih =>
    obtain ⟨first, later⟩ := List.forall_mem_cons.1 lexes
    obtain ⟨neat, tidy⟩ := List.forall_mem_cons.1 tidy
    obtain ⟨key, keys⟩ := List.forall_mem_cons.1 keys
    rw [writeEntries_cons, List.append_assoc]
    cases entries with
    | nil =>
      obtain ⟨q, stands, leads⟩ := leads_entry key first neat opens stands within begins
      refine ⟨q, stands, ?_⟩
      simpa [tokensOfEntries, writeEntries] using leads
    | cons next entries =>
      -- The next key stands where this one does, so the mapping stays open.
      have sign :
        Begins (writeEntries column true (next :: entries) ++ (blanks count ++ line)) := by
        rw [writeEntries_cons, List.append_assoc]
        exact (keys next List.mem_cons_self).begins column next.2 _
      obtain ⟨r, under, leads⟩ := leads_entry key first neat opens stands le_rfl sign
      obtain ⟨outer, rfl⟩ := opens.opened_eq
      rw [shut_kept (by rintro _ ⟨⟩; exact under.ge)] at leads
      obtain ⟨q, stands, rest⟩ := ih (List.cons_ne_nil _ _) keys later tidy (.already outer _) under
      refine ⟨q, stands, ?_⟩
      have same : (tokensOfEntries (entry :: next :: entries)).reverse ++ begun =
          (tokensOfEntries (next :: entries)).reverse ++
            ((tokensOfEntry entry).reverse ++ begun) := by
        rw [tokensOfEntries]
        simp
      rw [same, writeEntries_next, List.append_assoc]
      exact leads.trans rest

end Collections

theorem lexes_sequence {items : List Node} (tidy : ∀ item ∈ items, item.Tidy)
    (lexes : ∀ item ∈ items, item.Lexes) : (sequence items).Lexes := by
  intro dashes column d count columns tokens p keyAllowed line place within begins
  cases items with
  | nil =>
    exact leads_empty (fun s rest => (s.step_brackets rest).1)
      (fun s rest => (s.step_brackets rest).2) rfl (begins_sign (by decide) _) place begins
  | cons item items =>
    obtain ⟨stands, rfl, deeper⟩ := place
    cases dashes with
    | true =>
      obtain rfl : d = column := deeper
      exact leads_items (List.cons_ne_nil _ _) lexes tidy (.already columns tokens) stands within
        begins
    | false =>
      have opens : Opens column .sequenceStart (d :: columns) tokens (column :: d :: columns)
          (.sequenceStart :: tokens) :=
        .deeper tokens (by rintro _ ⟨⟩; exact deeper)
      obtain ⟨q, under, leads⟩ := leads_items (List.cons_ne_nil _ _) lexes tidy opens stands
        (within.trans deeper.le) begins
      have before : (⟨line, q⟩ : Place).column < column := under.trans_lt (within.trans_lt deeper)
      rw [shut_closed before] at leads
      refine ⟨q, under, ?_⟩
      have same : ((Node.sequence (item :: items)).tokens false).reverse ++ tokens =
          .blockEnd :: ((tokensOfItems (item :: items)).reverse ++ .sequenceStart :: tokens) := by
        simp [Node.tokens]
      rw [same]
      exact leads

theorem lexes_mapping {entries : List (Node × Node)} (keys : ∀ entry ∈ entries, entry.1.IsKey)
    (tidy : ∀ entry ∈ entries, entry.2.Tidy) (lexes : ∀ entry ∈ entries, entry.2.Lexes) :
    (mapping entries).Lexes := by
  intro dashes column d count columns tokens p keyAllowed line place within begins
  cases entries with
  | nil =>
    exact leads_empty (fun s rest => (s.step_braces rest).1)
      (fun s rest => (s.step_braces rest).2) rfl (begins_sign (by decide) _) place begins
  | cons entry entries =>
    obtain ⟨stands, rfl, deeper⟩ := place
    have opens : Opens column .mappingStart (d :: columns) tokens (column :: d :: columns)
        (.mappingStart :: tokens) :=
      .deeper tokens (by rintro _ ⟨⟩; exact deeper)
    obtain ⟨q, under, leads⟩ := leads_entries (List.cons_ne_nil _ _) keys lexes tidy opens stands
      (within.trans deeper.le) begins
    have before : (⟨line, q⟩ : Place).column < column := under.trans_lt (within.trans_lt deeper)
    rw [shut_closed before] at leads
    refine ⟨q, under, ?_⟩
    have same : ((Node.mapping (entry :: entries)).tokens dashes).reverse ++ tokens =
        .blockEnd :: ((tokensOfEntries (entry :: entries)).reverse ++ .mappingStart :: tokens) := by
      simp [Node.tokens]
    rw [same]
    exact leads

theorem Tidy.lexes {node : Node} (tidy : node.Tidy) : node.Lexes := by
  induction tidy with
  | @plain text fits some_ =>
    intro dashes column d count columns tokens p keyAllowed line place within begins
    have written : (Node.scalar .plain none text).write column ++ (blanks count ++ line) =
        text.toList ++ '\n' :: (blanks count ++ line) := by
      simp [write, writeScalar]
    rw [written]
    exact leads_plain fits some_ place within begins
  | @quoted text shown =>
    intro dashes column d count columns tokens p keyAllowed line place within begins
    have written : (Node.scalar .quoted none text).write column ++ (blanks count ++ line) =
        writeSingle column text.toList ++ '\n' :: (blanks count ++ line) := by
      simp [write, writeScalar, fitsSingle_of_shown shown]
    rw [written]
    exact leads_quoted shown column place begins
  | sequence tidy ih => exact lexes_sequence tidy ih
  | mapping keys values ih => exact lexes_mapping keys values ih

/-! ### Whole documents -/

/-- Lines of characters that are shown as they are. -/
def Lined (cs : List Char) : Prop := ∀ c ∈ cs, isShown c = true ∨ c = '\n'

theorem Lined.nil : Lined [] := by rintro _ ⟨⟩

theorem Lined.cons {c : Char} {cs : List Char} (here : isShown c = true ∨ c = '\n')
    (later : Lined cs) : Lined (c :: cs) :=
  List.forall_mem_cons.2 ⟨here, later⟩

theorem Lined.append {cs ds : List Char} (first : Lined cs) (second : Lined ds) :
    Lined (cs ++ ds) := by
  intro c member
  rcases List.mem_append.1 member with member | member
  · exact first c member
  · exact second c member

theorem Lined.of_shown {cs : List Char} (shown : ∀ c ∈ cs, isShown c = true) : Lined cs :=
  fun c member => .inl (shown c member)

theorem lined_blanks (count : Nat) : Lined (blanks count) := by
  intro c member
  rw [List.eq_of_mem_replicate member]
  exact .inl (by decide)

theorem lined_newLine : Lined ['\n'] := .cons (.inr rfl) .nil

theorem lined_single {cs : List Char} (shown : ∀ c ∈ cs, isShown c = true) (column : Nat) :
    Lined (writeSingleFrom column false cs) := by
  have quote : isShown '\'' = true ∨ '\'' = '\n' := .inl (by decide)
  induction cs with
  | nil => exact .cons quote .nil
  | cons c rest ih =>
    obtain ⟨here, later⟩ := List.forall_mem_cons.1 shown
    rw [writeSingleFrom, isBreak_of_shown here]
    simp only [Bool.false_eq_true, if_false, List.nil_append]
    refine .append ?_ (ih later)
    split
    · exact .cons quote (.cons quote .nil)
    · exact .cons (.inl here) .nil

theorem lined_items {items : List Node} {column : Nat}
    (lined : ∀ item ∈ items, ∀ column, Lined (item.write column)) (first : Bool) :
    Lined (writeItems column first items) := by
  induction items generalizing first with
  | nil => exact .nil
  | cons item items ih =>
    obtain ⟨here, later⟩ := List.forall_mem_cons.1 lined
    have dash : Lined ['-', ' '] := .cons (.inl (by decide)) (.cons (.inl (by decide)) .nil)
    rw [writeItems]
    refine .append (.append (.append ?_ dash) (here _)) (ih later false)
    cases first
    · exact lined_blanks column
    · exact .nil

theorem lined_lead (value : Node) (column : Nat) : Lined (value.lead column).1 := by
  have blank : Lined [' '] := .cons (.inl (by decide)) .nil
  have newLine : ∀ count, Lined ('\n' :: blanks count) := fun count =>
    .cons (.inr rfl) (lined_blanks count)
  cases value with
  | sequence items =>
    cases items
    · exact blank
    · exact newLine column
  | mapping entries =>
    cases entries
    · exact blank
    · exact newLine (column + 2)
  | _ => exact blank

theorem lined_entries {entries : List (Node × Node)} {column : Nat}
    (keys : ∀ entry ∈ entries, entry.1.IsKey)
    (lined : ∀ entry ∈ entries, ∀ column, Lined (entry.2.write column)) (first : Bool) :
    Lined (writeEntries column first entries) := by
  induction entries generalizing first with
  | nil => exact .nil
  | cons entry entries ih =>
    obtain ⟨here, later⟩ := List.forall_mem_cons.1 lined
    obtain ⟨key, others⟩ := List.forall_mem_cons.1 keys
    obtain ⟨_, value⟩ := entry
    obtain ⟨fits, _⟩ := key
    have colon : Lined [':'] := .cons (.inl (by decide)) .nil
    rw [writeEntries, writeEntry]
    refine .append (.append ?_ ?_) (ih others later false)
    · cases first
      · exact lined_blanks column
      · exact .nil
    · exact .append (.append (.append (.of_shown (of_fitsPlain fits).1) colon)
        (lined_lead value column)) (here _)

theorem Tidy.lined {node : Node} (tidy : node.Tidy) (column : Nat) : Lined (node.write column) := by
  induction tidy generalizing column with
  | plain fits _ =>
    rw [write, writeScalar]
    exact .append (.of_shown (of_fitsPlain fits).1) lined_newLine
  | quoted shown =>
    rw [write, writeScalar]
    simp only [fitsSingle_of_shown shown, if_true]
    exact .append (.cons (.inl (by decide)) (lined_single shown column)) lined_newLine
  | sequence _ ih =>
    rw [write]
    split
    · exact .cons (.inl (by decide)) (.cons (.inl (by decide)) lined_newLine)
    · exact lined_items ih true
  | mapping keys _ ih =>
    rw [write]
    split
    · exact .cons (.inl (by decide)) (.cons (.inl (by decide)) lined_newLine)
    · exact lined_entries keys ih true

theorem Lined.allowed {cs : List Char} (lined : Lined cs) : cs.all isAllowed = true := by
  rw [List.all_eq_true]
  intro c member
  rcases lined c member with shown | rfl
  · rw [isShown] at shown
    simp only [Bool.and_eq_true] at shown
    exact shown.1.1.1.1
  · decide

theorem Lined.unifyBreaks {cs : List Char} (lined : Lined cs) : unifyBreaks cs = cs := by
  induction cs with
  | nil => rfl
  | cons c rest ih =>
    obtain ⟨here, later⟩ := List.forall_mem_cons.1 lined
    have other : ∀ d, isShown d = false → d ≠ '\n' → c ≠ d := by
      rintro d hidden different rfl
      rcases here with shown | same
      · exact Bool.false_ne_true (hidden.symm.trans shown)
      · exact different same
    have back : c ≠ '\r' := other '\r' (by decide) (by decide)
    have next : c ≠ '\u0085' := other '\u0085' (by decide) (by decide)
    rw [Yaml.unifyBreaks, ih later]
    · simp [back, next]
    · rintro _ rfl
      exact absurd rfl back

/-- A mapping, as a whole document, is read as its tokens. -/
theorem tokens_render {entries : List (Node × Node)} (some_ : entries ≠ [])
    (tidy : (Node.mapping entries).Tidy) :
    Token.ofText? (Node.mapping entries).render = some ((Node.mapping entries).tokens false) := by
  have lined := tidy.lined 0
  have begins := tidy.begins 0 []
  rw [List.append_nil] at begins
  obtain ⟨entry, entries, rfl⟩ := List.exists_cons_of_ne_nil some_
  have written : (Node.mapping (entry :: entries)).write 0 =
      writeEntries 0 true (entry :: entries) ++ (blanks 0 ++ []) := by
    simp [write, blanks]
  cases tidy with
  | mapping keys values =>
  have opens : Opens 0 .mappingStart [] [] [0] [.mappingStart] := .deeper [] (by rintro _ ⟨⟩)
  obtain ⟨q, ended, leads⟩ := leads_entries (List.cons_ne_nil _ _) keys
    (fun entry member => (values entry member).lexes) values opens
    (show Position.start.column = 0 from rfl) le_rfl (show Begins [] by rintro _ ⟨⟩)
  rw [← written, shut_kept (by rintro _ ⟨⟩; exact Nat.zero_le _)] at leads
  have first : (start ((Node.mapping (entry :: entries)).write 0)).advance =
      some (outside ⟨(Node.mapping (entry :: entries)).write 0, .start⟩ [] [] none true) := by
    change (outside ⟨(Node.mapping (entry :: entries)).write 0, .start⟩ [] [] none true).advance = _
    rw [advance_outside (skipGap_begins begins false .start true), dropStale_none, Option.map_some,
      shut_kept (by rintro _ ⟨⟩)]
  have whole := leads.tokensFrom_eq rfl (reset_outside 0) le_rfl
  have same : (outside ⟨[], q⟩
      (.blockEnd :: ((tokensOfEntries (entry :: entries)).reverse ++ [.mappingStart])) [] none
      false).tokens.reverse = (Node.mapping (entry :: entries)).tokens false := by
    simp [Node.tokens, outside]
  rw [same] at whole
  rw [Token.ofText?, render, String.toList_ofList]
  simp only [lined.allowed, if_true, lined.unifyBreaks]
  rw [run_succ, first, Option.bind_some]
  exact whole

end Node
end WindowFold.Yaml
