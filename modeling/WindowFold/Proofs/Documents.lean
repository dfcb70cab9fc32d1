import Mathlib
import WindowFold.Proofs.Building
import WindowFold.Proofs.Numerals
import WindowFold.Query.Document

/-! Queries survive their documents: what is written of a query is read as the
query. An absent value is written as `null`, and text that could be taken for
anything else than text is quoted, so both come back as what they were. -/
namespace WindowFold
namespace Yaml

/-! ### Values read back -/

namespace Node

variable {α : Type}

theorem readInteger_toString {n : Int} (least : Timestamp.least ≤ n)
    (greatest : n ≤ Timestamp.greatest) : (plain (toString n)).readInteger = pure n := by
  have fits : IntType.int64.fit? n = some n := by
    rw [IntType.fit?, if_pos]
    rw [Bool.and_eq_true, decide_eq_true_eq, decide_eq_true_eq]
    exact ⟨least, greatest⟩
  change Reading.ofOption ((Plain.integer? (toString n)).bind IntType.int64.fit?) = pure n
  rw [Plain.integer?_toString, Option.bind_some, fits]
  rfl

theorem readNatural_toString {bound n : Nat} (below : n < bound) :
    (plain (toString n)).readNatural bound = pure n := by
  change Reading.ofOption ((Plain.natural? (toString n)).filter (· < bound)) = pure n
  rw [Plain.natural?_toString, Option.filter_some, if_pos (decide_eq_true below)]
  rfl

theorem readBoolean_ofBoolean (b : Bool) : (ofBoolean b).readBoolean = pure b := by
  cases b <;> rfl

theorem readWord_plain {ofName? : String → Option α} {name : String} {value : α}
    (found : ofName? name = some value) : (plain name).readWord ofName? = pure value := by
  change Reading.ofOption (ofName? name) = pure value
  rw [found]
  rfl

theorem readText_ofText (text : String) : (ofText text).readText = pure text := rfl

/-- Plain text is written only for text that nothing else is taken for. -/
theorem of_plain {text : String} (style : Style.ofText text = .plain) :
    Plain.isAmbiguous text = false ∧ fitsPlain text.toList = true := by
  rw [Style.ofText] at style
  split_ifs at style with ambiguous _ _ fits
  exact ⟨Bool.eq_false_of_not_eq_true ambiguous, fits⟩

theorem present_ofText (text : String) : (ofText text).isPresent? = some true := by
  rw [ofText]
  cases style : Style.ofText text with
  | plain =>
    obtain ⟨unambiguous, _⟩ := of_plain style
    simp only [Plain.isAmbiguous, Bool.or_eq_false_iff] at unambiguous
    obtain ⟨⟨⟨⟨some_, null⟩, _⟩, _⟩, _⟩ := unambiguous
    rw [isPresent?, some_, null]
    rfl
  | _ => rfl

/-- What is written of a value that is there does not stand for nothing. -/
theorem readOptional_ofOptional {toNode : α → Node} {read : Node → Reading α} {value : Option α}
    (itself : ∀ v ∈ value, (toNode v).target = pure (toNode v))
    (present : ∀ v ∈ value, (toNode v).isPresent? = some true)
    (reads : ∀ v ∈ value, read (toNode v) = pure v) :
    (ofOptional toNode value).readOptional read = pure value := by
  cases value with
  | none => rfl
  | some v =>
    have there : Reading.ofOption (some true) = pure true := rfl
    rw [ofOptional, readOptional, itself v rfl, pure_bind, present v rfl, there, pure_bind,
      if_pos rfl, reads v rfl, pure_bind]

theorem readList_map {toNode : α → Node} {read : Node → Reading α} {values : List α}
    (reads : ∀ v ∈ values, read (toNode v) = pure v) :
    (sequence (values.map toNode)).readList read = pure values := by
  change (values.map toNode).mapM read = pure values
  induction values with
  | nil => rfl
  | cons v values ih =>
    obtain ⟨first, later⟩ := List.forall_mem_cons.1 reads
    rw [List.map_cons, List.mapM_cons, first, ih later, pure_bind, pure_bind]

theorem readFields_mapping (fields : Fields) :
    (mapping (fields.map fun field => (plain field.1, field.2))).readFields = pure fields := by
  have whole (entries : List (Node × Node)) : (mapping entries).target = pure (mapping entries) :=
    rfl
  have found (entries : List (Node × Node)) :
      Reading.ofOption (mapping entries).entries? = pure entries := rfl
  rw [readFields, whole, pure_bind, found, pure_bind]
  induction fields with
  | nil => rfl
  | cons field fields ih =>
    rw [List.map_cons, List.mapM_cons, ih]
    rfl

end Node

namespace Fields

variable {α : Type} {fields : Fields} {name : String} {node : Node}

theorem required_found (found : fields.find? name = some (some node)) (read : Node → Reading α) :
    fields.required name read = read node := by
  rw [required, found]

theorem getD_found (found : fields.find? name = some (some node)) (default : α)
    (read : Node → Reading α) : fields.getD name default read = read node := by
  rw [getD, found]

end Fields
end Yaml

open Yaml

/-! ### Queries read back -/

/-- Counts of milliseconds have 64 bits, counts of months 32. -/
def Duration.Expressible : Duration → Prop
  | millis count => Timestamp.least ≤ count ∧ count ≤ Timestamp.greatest
  | months count => count < UInt32.size

structure Grouping.Expressible (g : Grouping) : Prop where
  start : Timestamp.least ≤ g.start ∧ g.start ≤ Timestamp.greatest
  stop : Timestamp.least ≤ g.stop ∧ g.stop ≤ Timestamp.greatest
  interval : g.interval.Expressible
  slidingStep : ∀ step ∈ g.slidingStep, step.Expressible

/-- Indices have 64 bits. A name is made of characters that are shown as they
are, the printable ones of ASCII among them. -/
structure AggregationSpec.Expressible (spec : AggregationSpec) : Prop where
  inputs : ∀ column ∈ spec.inputs, column < UInt64.size
  name : ∀ name ∈ spec.name, ∀ c ∈ name.toList, isShown c = true

structure Query.Expressible (q : Query) : Prop where
  aggregations : ∀ spec ∈ q.aggregations, spec.Expressible
  grouping : ∀ g ∈ q.grouping, g.Expressible

theorem Duration.ofNode_toNode {d : Duration} (fits : d.Expressible) :
    ofNode d.toNode = pure d := by
  cases d with
  | millis count =>
    change (Node.readInteger (.plain (toString count)) >>= fun count => pure (millis count)) = _
    rw [Node.readInteger_toString fits.1 fits.2, pure_bind]
  | months count =>
    change (Node.readNatural UInt32.size (.plain (toString count)) >>=
      fun count => pure (months count)) = _
    rw [Node.readNatural_toString fits, pure_bind]

theorem Grouping.ofNode_toNode {g : Grouping} (fits : g.Expressible) :
    ofNode g.toNode = pure g := by
  have fields := Node.readFields_mapping [("start_time", .plain (toString g.start)),
    ("end_time", .plain (toString g.stop)), ("interval", g.interval.toNode),
    ("sliding_step", .ofOptional Duration.toNode g.slidingStep),
    ("left_closed_right_open", .ofBoolean g.leftClosed)]
  change g.toNode.readFields = _ at fields
  have whole : ∀ step ∈ g.slidingStep, step.toNode.target = pure step.toNode := by
    rintro (_ | _) _ <;> rfl
  have present : ∀ step ∈ g.slidingStep, step.toNode.isPresent? = some true := by
    rintro (_ | _) _ <;> rfl
  have steps := Node.readOptional_ofOptional whole present fun step member =>
    Duration.ofNode_toNode (fits.slidingStep step member)
  rw [ofNode, fields, pure_bind, Fields.required_found rfl, Fields.required_found rfl,
    Fields.required_found rfl, Fields.getD_found rfl, Fields.getD_found rfl]
  rw [Node.readInteger_toString fits.start.1 fits.start.2, pure_bind,
    Node.readInteger_toString fits.stop.1 fits.stop.2, pure_bind,
    Duration.ofNode_toNode fits.interval, pure_bind, steps, pure_bind, Node.readBoolean_ofBoolean,
    pure_bind]

theorem AggregationSpec.ofNode_toNode {spec : AggregationSpec} (fits : spec.Expressible) :
    ofNode spec.toNode = pure spec := by
  have fields := Node.readFields_mapping [("kind", .plain spec.kind.name),
    ("step", .plain spec.step.name),
    ("input_columns", .sequence (spec.inputs.map fun column => .plain (toString column))),
    ("name", .ofOptional Node.ofText spec.name)]
  change spec.toNode.readFields = _ at fields
  have kind : AggregationKind.ofName? spec.kind.name = some spec.kind := by
    cases spec.kind <;> rfl
  have step : AggregationStep.ofName? spec.step.name = some spec.step := by
    cases spec.step <;> rfl
  have inputs : Node.readList Node.readCount
      (.sequence (spec.inputs.map fun column => .plain (toString column))) = pure spec.inputs :=
    Node.readList_map fun column member => Node.readNatural_toString (fits.inputs column member)
  have name : Node.readOptional Node.readText (.ofOptional Node.ofText spec.name) =
      pure spec.name :=
    Node.readOptional_ofOptional (fun _ _ => rfl) (fun name _ => Node.present_ofText name)
      fun name _ => Node.readText_ofText name
  rw [ofNode, fields, pure_bind, Fields.required_found rfl, Fields.getD_found rfl,
    Fields.required_found rfl, Fields.getD_found rfl]
  rw [Node.readWord_plain kind, pure_bind, Node.readWord_plain step, pure_bind, inputs, pure_bind,
    name, pure_bind]

theorem Query.ofNode_toNode {q : Query} (fits : q.Expressible) : ofNode q.toNode = pure q := by
  have fields := Node.readFields_mapping [
    ("aggregations", .sequence (q.aggregations.map AggregationSpec.toNode)),
    ("group_by_time", .ofOptional Grouping.toNode q.grouping),
    ("ascending", .ofBoolean (q.scan = .ascending)),
    ("output_partial_window", .ofBoolean q.keepsClipped)]
  change q.toNode.readFields = _ at fields
  have aggregations := Node.readList_map fun spec member =>
    AggregationSpec.ofNode_toNode (fits.aggregations spec member)
  have grouping : Node.readOptional Grouping.ofNode (.ofOptional Grouping.toNode q.grouping) =
      pure q.grouping :=
    Node.readOptional_ofOptional (fun _ _ => rfl) (fun _ _ => rfl) fun g member =>
      Grouping.ofNode_toNode (fits.grouping g member)
  have scan : (if decide (q.scan = .ascending) = true then Scan.ascending else .descending) =
      q.scan := by
    cases q.scan <;> rfl
  rw [ofNode, fields, pure_bind, Fields.required_found rfl, Fields.getD_found rfl,
    Fields.getD_found rfl, Fields.getD_found rfl]
  rw [aggregations, pure_bind, grouping, pure_bind, Node.readBoolean_ofBoolean, pure_bind,
    Node.readBoolean_ofBoolean, pure_bind, scan]

/-! ### Queries are tidy -/

namespace Yaml.Node

theorem tidy_ofText {text : String} (shown : ∀ c ∈ text.toList, isShown c = true) :
    (ofText text).Tidy := by
  have oneLine : text.toList.contains '\n' = false := by
    rw [List.contains_eq_mem, decide_eq_false_iff_not]
    intro member
    cases shown _ member
  cases style : Style.ofText text with
  | plain =>
    obtain ⟨unambiguous, fits⟩ := of_plain style
    have some_ : text ≠ "" := by
      rintro rfl
      cases unambiguous
    rw [ofText, style]
    exact .plain fits some_
  | quoted =>
    rw [ofText, style]
    exact .quoted shown
  | literal | folded =>
    simp only [Style.ofText, oneLine, Bool.false_eq_true, if_false] at style
    split_ifs at style

theorem tidy_ofBoolean (b : Bool) : (ofBoolean b).Tidy := by
  cases b <;> exact .plain (by decide) (by decide)

theorem tidy_ofOptional {α : Type} {toNode : α → Node} {value : Option α}
    (tidy : ∀ v ∈ value, (toNode v).Tidy) : (ofOptional toNode value).Tidy := by
  cases value with
  | none => exact .plain (by decide) (by decide)
  | some v => exact tidy v rfl

theorem tidy_integer (n : Int) : (plain (toString n)).Tidy := by
  refine .plain (fitsPlain_integer n) ?_
  intro missing
  have read := Plain.integer?_toString n
  rw [missing] at read
  cases read

theorem tidy_natural (n : Nat) : (plain (toString n)).Tidy := tidy_integer (.ofNat n)

end Yaml.Node

theorem Duration.tidy_toNode (d : Duration) : d.toNode.Tidy := by
  cases d with
  | millis count =>
    refine .mapping (List.forall_mem_singleton.2 ?_) (List.forall_mem_singleton.2 ?_)
    · exact .plain (by decide) (by decide) (by decide)
    · exact Node.tidy_integer count
  | months count =>
    refine .mapping (List.forall_mem_singleton.2 ?_) (List.forall_mem_singleton.2 ?_)
    · exact .plain (by decide) (by decide) (by decide)
    · exact Node.tidy_natural count

theorem Grouping.tidy_toNode (g : Grouping) : g.toNode.Tidy := by
  constructor <;> simp only [List.mem_cons, List.not_mem_nil, or_false]
  · rintro _ (rfl | rfl | rfl | rfl | rfl) <;> exact .plain (by decide) (by decide) (by decide)
  · rintro _ (rfl | rfl | rfl | rfl | rfl)
    · exact Node.tidy_integer g.start
    · exact Node.tidy_integer g.stop
    · exact g.interval.tidy_toNode
    · exact Node.tidy_ofOptional fun step _ => step.tidy_toNode
    · exact Node.tidy_ofBoolean g.leftClosed

theorem AggregationSpec.tidy_toNode {spec : AggregationSpec} (fits : spec.Expressible) :
    spec.toNode.Tidy := by
  constructor <;> simp only [List.mem_cons, List.not_mem_nil, or_false]
  · rintro _ (rfl | rfl | rfl | rfl) <;> exact .plain (by decide) (by decide) (by decide)
  · rintro _ (rfl | rfl | rfl | rfl)
    · cases spec.kind <;> exact .plain (by decide) (by decide)
    · cases spec.step <;> exact .plain (by decide) (by decide)
    · constructor
      rintro _ member
      obtain ⟨column, _, rfl⟩ := List.mem_map.1 member
      exact Node.tidy_natural column
    · exact Node.tidy_ofOptional fun name member => Node.tidy_ofText (fits.name name member)

theorem Query.tidy_toNode {q : Query} (fits : q.Expressible) : q.toNode.Tidy := by
  constructor <;> simp only [List.mem_cons, List.not_mem_nil, or_false]
  · rintro _ (rfl | rfl | rfl | rfl) <;> exact .plain (by decide) (by decide) (by decide)
  · rintro _ (rfl | rfl | rfl | rfl)
    · constructor
      rintro _ member
      obtain ⟨spec, among, rfl⟩ := List.mem_map.1 member
      exact AggregationSpec.tidy_toNode (fits.aggregations spec among)
    · exact Node.tidy_ofOptional fun g _ => g.tidy_toNode
    · exact Node.tidy_ofBoolean _
    · exact Node.tidy_ofBoolean _

/-- What is written of a query is read as the query. -/
theorem Query.read_write (q : Query) (fits : q.Expressible) : read q.write = .ok q := by
  have document : readDocument q.write = some q.toNode :=
    Node.readDocument_render (List.cons_ne_nil _ _) (tidy_toNode fits)
  have values : Reading.run ofNode q.toNode = some q := by
    rw [Reading.run, ofNode_toNode fits]
    rfl
  rw [read, document, Option.bind_some, values]

/-- Names that look like nothing, an item, a quote, a number, an entry and a comment. -/
def Query.oddlyNamed : Query where
  aggregations :=
    [none, some "null", some "", some "- x", some "it's", some "0x1f", some "a: b", some " #"].map
      fun name => ⟨.lastValue, .relaying, [0, 18446744073709551615], name⟩
  grouping := some {
    start := Timestamp.least
    stop := Timestamp.greatest
    interval := .months 4294967295
    slidingStep := some (.millis (-1))
    leftClosed := false }
  scan := .descending
  keepsClipped := true

theorem Query.oddlyNamed_read_write :
    oddlyNamed.Expressible ∧ read oddlyNamed.write = .ok oddlyNamed := by
  have names : ∀ name ∈ [none, some "null", some "", some "- x", some "it's", some "0x1f",
      some "a: b", some " #"], name.all (·.toList.all isShown) = true := by
    decide
  have fits : oddlyNamed.Expressible := by
    constructor
    · intro spec member
      obtain ⟨name, among, rfl⟩ := List.mem_map.1 member
      refine ⟨show ∀ column ∈ [0, 18446744073709551615], column < UInt64.size by decide, ?_⟩
      rintro text rfl
      exact List.all_eq_true.1 (names _ among)
    · rintro _ ⟨⟩
      refine ⟨by decide, by decide, ?_, ?_⟩
      · exact (by decide : 4294967295 < UInt32.size)
      · rintro _ ⟨⟩
        exact (by decide : Timestamp.least ≤ -1 ∧ -1 ≤ Timestamp.greatest)
  exact ⟨fits, read_write oddlyNamed fits⟩

end WindowFold
