import WindowFold.Proofs.Abiding
import WindowFold.Proofs.ClippedQueries
import WindowFold.Proofs.Teardown

/-! A tree hands out blocks of the schema that it announces, and does not fail over the
columns of its children as long as these are as they announced themselves. -/
namespace WindowFold

/-- Columns of other types or lengths than an operation on columns admits. No stage words
such a failure itself. -/
def Failure.isOfColumns : Failure → Bool
  | columnMismatch | mixedScalars | outOfBounds => true
  | _ => false

/-- The types of a partial result over values of this type. -/
def AggregationKind.partialTypes (kind : AggregationKind) (type : ScalarType) : List ScalarType :=
  match kind with
  | count | minTime | maxTime => [.int64]
  | sum => [.float64]
  | avg => [.int64, .float64]
  | extreme | minValue | maxValue => [type]
  | firstValue | lastValue => [type, .int64]

theorem Accumulator.partialTypes_of_create {kind : AggregationKind} {type : ScalarType}
    {scan : Scan} {acc : Accumulator} (created : create kind type scan = .ok acc) :
    acc.partialTypes = kind.partialTypes type := by
  unfold create at created
  split at created
  · contradiction
  cases created
  cases kind <;> rfl

/-- Only the type of the first column is free. -/
theorem AggregationKind.partialTypes_congr {kind : AggregationKind} {type other : ScalarType}
    (first : (kind.partialTypes type).head? = some other) :
    kind.partialTypes other = kind.partialTypes type := by
  cases kind with
  | count | minTime | maxTime | sum | avg => rfl
  | extreme | minValue | maxValue | firstValue | lastValue =>
    obtain rfl := Option.some.inj first
    rfl

namespace Aggregator
variable {a : Aggregator} {types : List ScalarType} {scan : Scan}

theorem matches_of_create {spec : AggregationSpec} {schema : Schema}
    (created : create spec schema scan = .ok a)
    (partials : spec.step.readsRows = false → ∃ type,
      spec.inputs.map (schema.types[·]?) = (spec.kind.partialTypes type).map some) :
    a.Matches schema.types := by
  intro step
  obtain ⟨field, found, fresh, _, own, inputs, _, _⟩ := of_create created
  obtain ⟨type, columns⟩ := partials (own ▸ step)
  rw [← inputs] at columns
  have first : (spec.kind.partialTypes type).head? = some field.type := by
    have some_ : a.inputs.head? = some a.column :=
      (gathers_of_create created (own ▸ step)).first
    have heads := congrArg List.head? columns
    rw [List.head?_map, List.head?_map, some_, Option.map_some, Schema.types, List.getElem?_map,
      found, Option.map_some] at heads
    cases listed : (spec.kind.partialTypes type).head? with
    | none =>
      rw [listed] at heads
      cases heads
    | some head =>
      rw [listed] at heads
      exact (Option.some.inj heads).symm
  rw [columns, Accumulator.partialTypes_of_create fresh, AggregationKind.partialTypes_congr first]

/-- One whose columns are there and of its types refuses nothing. -/
theorem Able.not_refuses (able : a.Able types scan) (alike : a.Matches types) (e : Failure) :
    ¬ a.Refuses types e := by
  intro refuses
  cases refuses with
  | mismatch unlike => exact unlike alike
  | @missing column found =>
    have far : types.length ≤ column := by simpa using List.find?_some found
    have listed := List.mem_of_find?_eq_some found
    rcases able.steady with reads | gathers
    · rw [reads.inputs, List.mem_singleton] at listed
      have := reads.bound
      omega
    · have there : types[column]? ∈ a.accumulator.partialTypes.map some := by
        rw [← alike gathers.readsPartials]
        exact List.mem_map_of_mem listed
      obtain ⟨type, _, same⟩ := List.mem_map.1 there
      have := (List.getElem?_eq_some_iff.1 same.symm).1
      omega

theorem Keeps.outputFields_eq {b : Aggregator} (keeps : Keeps a b) :
    b.outputFields = a.outputFields := by
  rw [Aggregator.outputFields, Aggregator.outputFields, keeps.outputTypes, keeps.same]

theorem outputFields_enter (a : Aggregator) (range : TimeRange) :
    (a.enter range).outputFields = a.outputFields := by
  rw [Aggregator.outputFields, Aggregator.outputFields, outputTypes_enter]
  rfl

end Aggregator

section
variable {fresh aggregators : List Aggregator} {range : TimeRange}

theorem Entered.outputSchema_eq (entered : Entered fresh range aggregators) :
    outputSchema aggregators = outputSchema fresh := by
  have fields : fresh.map (·.outputFields) = aggregators.map (·.outputFields) := by
    rw [Entered, enterAll, List.forall₂_map_left_iff] at entered
    apply map_eq_map_iff.2
    apply entered.imp
    intro a b kept
    rw [kept.outputFields_eq, Aggregator.outputFields_enter]
  rw [outputSchema, outputSchema, List.flatMap_def, List.flatMap_def, fields]

end

namespace Tree
variable {σ : Type} {types : List ScalarType} {fresh : List Aggregator} {tree : Tree σ}

/-- The aggregators of the stage at the top. -/
def aggregators : Tree σ → List Aggregator
  | source _ => []
  | window w _ => w.aggregators
  | merge m _ => m.aggregators

theorem children_create (m : MergeStage) (children : List (Tree σ)) :
    (merge m (children.map Inlet.create)).children = children := by
  rw [Tree.children, List.map_map]
  exact List.map_id children

/-- The stage at the top was made with `fresh` aggregators over children of these types. -/
def Sound (types : List ScalarType) (fresh : List Aggregator) : Tree σ → Prop
  | source _ => False
  | window w _ => w.Sound types fresh
  | merge m inlets => m.Sound types fresh ∧
      ∀ inlet ∈ inlets, Aggregator.Fit types m.scan inlet.held.toList

theorem Sound.act {α : Type} (f : σ → α × σ) (sound : tree.Sound types fresh) (path : List Nat) :
    (tree.act f path).2.Sound types fresh := by
  cases tree with
  | source s => exact sound.elim
  | window w child => rcases path with _ | ⟨_ | _, _⟩ <;> exact sound
  | merge m inlets =>
    cases path with
    | nil => exact sound
    | cons index path =>
      simp only [Tree.act, actInlets_eq]
      refine ⟨sound.1, fun inlet member => ?_⟩
      obtain ⟨i, inside, rfl⟩ := List.getElem_of_mem member
      rw [List.length_modify] at inside
      rw [List.getElem_modify]
      split
      · exact sound.2 inlets[i] (List.getElem_mem inside)
      · exact sound.2 inlets[i] (List.getElem_mem inside)

variable [Operator σ]

theorem Sound.readiness (sound : tree.Sound types fresh) :
    tree.readiness.2.Sound types fresh := by
  cases tree with
  | source s => exact sound.elim
  | window w child =>
    rw [Tree.readiness]
    split <;> exact sound
  | merge m inlets =>
    rw [Tree.readiness]
    split
    · exact sound
    have frame := inletsReadiness_frame 0 inlets
    refine ⟨sound.1, fun after member => ?_⟩
    obtain ⟨before, inside, held, _⟩ := exists_left frame member
    rw [held]
    exact sound.2 before inside

theorem Sound.close (sound : tree.Sound types fresh) : tree.close.2.Sound types fresh := by
  cases tree with
  | source s => exact sound.elim
  | window w child =>
    rw [Tree.close]
    split
    · exact sound
    · exact WindowStage.Sound.close sound
  | merge m inlets =>
    rw [Tree.close]
    split
    · exact sound
    rw [closeInlets_eq]
    refine ⟨MergeStage.Sound.close sound.1, fun inlet member => ?_⟩
    obtain ⟨before, _, rfl⟩ := List.mem_map.1 member
    exact List.forall_mem_nil _

/-- A child fails to answer, or to tell after the call whether there is more. -/
def ChildFails (tree : Tree σ) (e : Failure) : Prop :=
  (∃ child ∈ tree.children, child.next.1 = .error e) ∨
    ∃ child ∈ tree.next.2.children, child.hasNext = .error e

/-- Why an open stage fails to answer, and of which schema its blocks are. -/
structure Answers (types : List ScalarType) (fresh : List Aggregator) (tree : Tree σ) : Prop where
  sound : tree.next.2.Sound types fresh
  fails : FailsFor (Grounds types fresh tree.ChildFails) tree.next.1
  schema : ∀ block, tree.next.1 = .ok (.block block) → block.schema = outputSchema fresh

theorem Sound.answers (sound : tree.Sound types fresh) (running : tree.isClosed = false)
    (typed : ∀ child ∈ tree.children, ∀ block, child.next.1 = .ok (.block block) →
      block.schema.types = types) : tree.Answers types fresh := by
  cases tree with
  | source s => exact sound.elim
  | window w child =>
    obtain ⟨abides, schema⟩ := WindowStage.abides_next hasNext sound running
      (typed child List.mem_cons_self) child
    constructor
    · exact abides.sound
    · refine abides.fails.imp fun e grounds => grounds.imp ?_
      rintro e (pulled | told)
      · exact .inl ⟨child, List.mem_cons_self, pulled⟩
      · exact .inr ⟨_, List.mem_cons_self, told⟩
    · exact schema
  | merge m inlets =>
    have each : ∀ lane ∈ lanes inlets, lane.Sound types m.scan fun e =>
        ∃ child ∈ (merge m inlets).children, child.next.1 = .error e := by
      rw [lanes_eq]
      intro lane member
      obtain ⟨inlet, inside, rfl⟩ := List.mem_map.1 member
      have listed : inlet.child ∈ (merge m inlets).children := List.mem_map_of_mem inside
      exact ⟨sound.2 inlet inside, fun _ => typed _ listed, fun _ e failed => ⟨_, listed, failed⟩⟩
    obtain ⟨last, scan, fit, fails, schema⟩ :=
      MergeStage.abides_next hasNext sound.1 running each
    constructor
    · refine ⟨last, fun inlet member => ?_⟩
      have kept := fit inlet member
      rw [← scan] at kept
      exact kept
    · refine fails.imp fun e grounds => grounds.imp ?_
      rintro e (pulled | ⟨inlet, member, told⟩)
      · exact .inl pulled
      · exact .inr ⟨_, List.mem_map_of_mem member, told⟩
    · exact schema

theorem Sound.happen (sound : tree.Sound types fresh)
    (typed : ∀ child ∈ tree.children, ∀ block, child.next.1 = .ok (.block block) →
      block.schema.types = types) (event : Happening σ) :
    (tree.happen event).Sound types fresh := by
  cases event with
  | changed path change => exact sound.act _ path
  | asked request =>
    cases request with
    | hasNext => exact sound
    | readiness => exact sound.readiness
    | close => exact sound.close
    | next =>
      rw [Tree.happen, ask]
      cases closed : tree.isClosed with
      | false => exact (sound.answers closed typed).sound
      | true =>
        obtain ⟨_, refused⟩ := (shut_of_isClosed closed).next
        rw [refused]
        exact sound

theorem after_next (tree : Tree σ) (events : List (Happening σ)) :
    tree.after (events ++ [.asked .next]) = (tree.after events).next.2 := by
  rw [Tree.after, List.foldl_append]
  rfl

/-- Where the children are asked for blocks of these types throughout, the stage stays sound. -/
theorem Sound.after (sound : tree.Sound types fresh) {events : List (Happening σ)}
    (typed : ∀ before, before <+: events → ∀ child ∈ (tree.after before).children, ∀ block,
      child.next.1 = .ok (.block block) → block.schema.types = types) :
    (tree.after events).Sound types fresh := by
  induction events generalizing tree with
  | nil => exact sound
  | cons event rest ih =>
    apply ih (sound.happen (typed [] List.nil_prefix) event)
    intro before part
    exact typed (event :: before) (List.cons_prefix_cons.2 ⟨rfl, part⟩)

theorem Sound.schema (sound : tree.Sound types fresh) :
    tree.schema = outputSchema fresh ∧ ∃ range, Entered fresh range tree.aggregators := by
  cases tree with
  | source s => exact sound.elim
  | window w child => exact ⟨WindowStage.Sound.schema sound, WindowStage.Sound.entered sound⟩
  | merge m inlets => exact ⟨sound.1.schema, sound.1.entered⟩

/-- A moment at which the block that any child would hand out `keeps` to what the child
announced, and at which children fail only as they may. -/
structure Faithful (keeps : Schema → Block → Prop) (may : Failure → Prop)
    (announced : List Schema) (tree : Tree σ) : Prop where
  given : List.Forall₂ (fun schema child => ∀ block, child.next.1 = .ok (.block block) →
    keeps schema block) announced tree.children
  hale : ∀ child ∈ tree.children, FailsFor may child.next.1 ∧ FailsFor may child.hasNext

/-- At most one block is handed out. -/
instance decidableGiven (outcome : Except Failure Answer) (p : Block → Prop) [DecidablePred p] :
    Decidable (∀ block, outcome = .ok (.block block) → p block) :=
  match outcome with
  | .ok (.block block) => decidable_of_iff (p block)
      ⟨fun holds _ same => Answer.block.inj (Except.ok.inj same) ▸ holds, fun all => all block rfl⟩
  | .ok .notReady | .ok .endOfStream | .error _ => isTrue nofun

instance {keeps : Schema → Block → Prop} {may : Failure → Prop} {announced : List Schema}
    [∀ schema, DecidablePred (keeps schema)] [DecidablePred may] :
    Decidable (tree.Faithful keeps may announced) :=
  decidable_of_iff (List.Forall₂ (fun schema child => ∀ block, child.next.1 = .ok (.block block) →
      keeps schema block) announced tree.children ∧
    ∀ child ∈ tree.children, FailsFor may child.next.1 ∧ FailsFor may child.hasNext)
    ⟨fun ⟨given, hale⟩ => ⟨given, hale⟩, fun faithful => ⟨faithful.given, faithful.hale⟩⟩

end Tree

namespace Query
variable {q : Query} {σ : Type} [Operator σ] {context : Context} {tree : Tree σ}
  {keepsClipped : Bool}

theorem able (schema : Schema) {fresh : List Aggregator} (made : q.aggregators schema = .ok fresh) :
    ∀ a ∈ fresh, a.Able schema.types q.scan := by
  intro a member
  obtain ⟨spec, _, created⟩ := exists_left (aggregators_eq_ok.1 made).2 member
  exact Aggregator.able_of_create created

theorem entered_always {schema : Schema} {fresh : List Aggregator}
    (made : q.aggregators schema = .ok fresh) : Entered fresh .always fresh := by
  have same : enterAll fresh .always = fresh := by
    rw [enterAll, List.map_congr_left, List.map_id]
    intro a member
    obtain ⟨spec, _, created⟩ := exists_left (aggregators_eq_ok.1 made).2 member
    exact Aggregator.enter_of_create created
  rw [Entered, same]
  exact List.forall₂_same.2 fun a _ => .refl a

/-- A new stage is sound for the types of its children. -/
theorem Tops.sound (tops : q.Tops context tree keepsClipped) : ∃ first ∈ tree.children, ∃ fresh,
    q.aggregators first.schema = .ok fresh ∧ tree.Sound first.schema.types fresh ∧
      ∀ child ∈ tree.children, child.schema.types = first.schema.types := by
  cases tops with
  | @window _ child accepted =>
    obtain ⟨fresh, series, made, windows, rfl⟩ := windowStage_eq_ok accepted
    refine ⟨child, List.mem_cons_self, fresh, made, ?_, ?_⟩
    · exact ⟨able _ made, rfl, ⟨_, entered_always made⟩, nofun, ⟨[], RowBuffer.holds_create _ _⟩⟩
    · intro other member
      rw [List.mem_singleton.1 member]
  | @merge _ children accepted =>
    obtain ⟨_, fresh, series, head, alike, made, windows, rfl⟩ := mergeStage_eq_ok accepted
    rw [Tree.children_create]
    obtain ⟨first, listed, rfl⟩ := List.mem_map.1 (List.mem_of_head? head)
    refine ⟨first, listed, fresh, made, ⟨?_, ?_⟩, ?_⟩
    · exact ⟨able _ made, rfl, ⟨_, entered_always made⟩, ⟨[], RowBuffer.holds_create _ _⟩⟩
    · intro inlet member
      obtain ⟨child, _, rfl⟩ := List.mem_map.1 member
      exact List.forall_mem_nil _
    · intro child member
      exact alike child.schema (List.mem_map_of_mem member)

/-- What a call comes to after any run of the stage of a query, as long as the children keep to
what they announced. -/
theorem Tops.answers_after {keeps : Schema → Block → Prop} {may : Failure → Prop}
    (tops : q.Tops context tree keepsClipped) (events : List (Happening σ))
    (types : ∀ {schema block}, keeps schema block → block.schema.types = Schema.types schema)
    (faithful : ∀ before, before <+: events ++ [.asked .next] →
      (tree.after before).Faithful keeps may (tree.children.map (·.schema))) :
    ∃ first ∈ tree.children, ∃ fresh, q.aggregators first.schema = .ok fresh ∧
      tree.Sound first.schema.types fresh ∧ (tree.after events).Sound first.schema.types fresh ∧
      FailsFor (Grounds first.schema.types fresh fun e =>
        may e ∨ ∃ name, e = .protocolViolation name .pulledAfterClose) (tree.after events).next.1 ∧
      ∀ block, (tree.after events).next.1 = .ok (.block block) →
        block.schema = outputSchema fresh := by
  obtain ⟨first, listed, fresh, made, sound, alike⟩ := tops.sound
  have here : events <+: events ++ [.asked .next] := List.prefix_append events _
  have typed : ∀ before, before <+: events → ∀ child ∈ (tree.after before).children, ∀ block,
      child.next.1 = .ok (.block block) → block.schema.types = first.schema.types := by
    intro before part child member block given
    obtain ⟨announced, inside, keeps⟩ :=
      exists_left (faithful before (part.trans here)).given member
    obtain ⟨own, there, rfl⟩ := List.mem_map.1 inside
    exact (types (keeps block given)).trans (alike own there)
  have now := sound.after typed
  refine ⟨first, listed, fresh, made, sound, now, ?_⟩
  cases closed : (tree.after events).isClosed with
  | true =>
    obtain ⟨name, refused⟩ := (Tree.shut_of_isClosed closed).next
    rw [refused]
    refine ⟨fun e same => ?_, fun block same => ?_⟩
    · cases same
      exact .child (.inr ⟨name, rfl⟩)
    · cases same
  | false =>
    have answers := now.answers closed (typed events (List.prefix_refl events))
    refine ⟨answers.fails.imp fun e grounds => grounds.imp ?_, answers.schema⟩
    rintro e (⟨child, member, pulled⟩ | ⟨child, member, told⟩)
    · exact .inl (((faithful events here).hale child member).1 e pulled)
    · have last := (faithful (events ++ [.asked .next]) (List.prefix_refl _)).hale
      rw [Tree.after_next] at last
      exact .inl ((last child member).2 e told)

/-- What is announced is what is handed out, whatever is asked of the stage of a query and
whatever changes below, as long as the children are as they announced themselves and
aggregations of partial results read the columns of one. -/
theorem keeps_announcement (tops : q.Tops context tree keepsClipped) (events : List (Happening σ))
    (partials : ∀ spec ∈ q.aggregations, spec.step.readsRows = false → ∀ child ∈ tree.children,
      ∃ type, spec.inputs.map (child.schema.types[·]?) = (spec.kind.partialTypes type).map some)
    (faithful : ∀ before, before <+: events ++ [.asked .next] →
      (tree.after before).Faithful (fun schema block => block.schema.types = schema.types)
        (·.isOfColumns = false) (tree.children.map (·.schema))) :
    let now := tree.after events
    now.schema = tree.schema ∧ now.schema = outputSchema now.aggregators ∧
    (∀ a ∈ now.aggregators, a.output.map (·.type) = a.outputFields.types ∧
      ∀ range, (a.enter range).output.map (·.type) = a.outputFields.types) ∧
    (∀ block, now.next.1 = .ok (.block block) → block.schema = now.schema) ∧
    FailsFor (·.isOfColumns = false) now.next.1 := by
  intro now
  obtain ⟨child, listed, fresh, made, sound, still, fails, given⟩ :=
    tops.answers_after events id faithful
  have matches_ : ∀ a ∈ fresh, a.Matches child.schema.types := by
    intro a member
    obtain ⟨spec, asked, created⟩ := exists_left (aggregators_eq_ok.1 made).2 member
    apply Aggregator.matches_of_create created
    intro step
    exact partials spec asked step child listed
  obtain ⟨announced, range, entered⟩ := still.schema
  have first : tree.schema = outputSchema fresh := sound.schema.1
  refine ⟨announced.trans first.symm, announced.trans entered.outputSchema_eq.symm, ?_, ?_, ?_⟩
  · intro a member
    have typed := entered.typed a member
    constructor
    · rw [Aggregator.output_types typed, Aggregator.outputFields_types]
    · intro range
      have empty : (a.enter range).accumulator.Typed := Accumulator.typed_reset _
      rw [Aggregator.output_types empty, Aggregator.outputTypes_enter,
        Aggregator.outputFields_types]
  · intro block handed
    exact (given block handed).trans announced.symm
  · intro e failed
    cases fails e failed with
    | child own =>
      rcases own with hale | ⟨name, rfl⟩
      · exact hale
      · rfl
    | disorder scan row => rfl
    | refused refused =>
      obtain ⟨a, member, refuses⟩ := refused
      exact absurd refuses ((able _ made a member).not_refuses (matches_ a member) e)

/-- The last of partial results, which have a value and its time, and the number of rows. -/
def gathered : Query where
  aggregations := [⟨.lastValue, .closing, [1, 2], some "last"⟩, ⟨.count, .relaying, [2], none⟩]
  grouping := some ⟨0, 30, .millis 10, none, true⟩
  scan := .ascending
  keepsClipped := true

/-- Nothing of the third window, and no value in the second. -/
def gatheredBlock : Block :=
  ⟨"time", false, [0, 10], [⟨"value", true, ⟨.int64, [some 5, none]⟩⟩,
    ⟨"at", true, ⟨.int64, [some 2, some 11]⟩⟩], by decide⟩

def gatheredChildren : List (Tree Script) :=
  ["left", "right"].map fun name =>
    .source (.create name gatheredBlock.schema [.answer (.block gatheredBlock)] none)

/-- Two calls for blocks of one row each, and the last of three rows is handed out. -/
theorem keeps_announcement_gathered :
    ∃ (stage : MergeStage) (tree : Tree Script),
      gathered.mergeStage (rowsAtMost 1) (gatheredChildren.map (·.schema)) = .ok stage ∧
      tree = .merge stage (gatheredChildren.map Inlet.create) ∧
      let now := tree.after [.asked .next, .asked .next]
      now.schema = tree.schema ∧ now.schema = outputSchema now.aggregators ∧
      (∀ a ∈ now.aggregators, a.output.map (·.type) = a.outputFields.types ∧
        ∀ range, (a.enter range).output.map (·.type) = a.outputFields.types) ∧
      (∀ block, now.next.1 = .ok (.block block) → block.schema = now.schema) ∧
      FailsFor (·.isOfColumns = false) now.next.1 ∧
      (Delivery.given now.next.1).flatMap (·.times) = [20] := by
  have accepted : gathered.mergeStage (rowsAtMost 1) (gatheredChildren.map (·.schema)) = .ok _ :=
    rfl
  refine ⟨_, _, accepted, rfl, ?_⟩
  have laws := keeps_announcement (.merge accepted) [.asked .next, .asked .next] ?_ ?_
  · exact ⟨laws.1, laws.2.1, laws.2.2.1, laws.2.2.2.1, laws.2.2.2.2, by decide +kernel⟩
  · intro spec listed _ child member
    refine ⟨.int64, ?_⟩
    have own : child.schema = gatheredBlock.schema := by
      simp only [Tree.children, gatheredChildren, List.map_cons, List.map_nil, Inlet.create,
        List.mem_cons, List.not_mem_nil, or_false] at member
      rcases member with rfl | rfl <;> rfl
    rw [own]
    simp only [gathered, List.mem_cons, List.not_mem_nil, or_false] at listed
    rcases listed with rfl | rfl <;> rfl
  · intro before part
    simp only [List.cons_append, List.nil_append, List.prefix_cons_iff, List.prefix_nil] at part
    rcases part with rfl | ⟨_, rfl, rfl | ⟨_, rfl, rfl | ⟨_, rfl, rfl⟩⟩⟩
    all_goals decide +kernel

end Query
end WindowFold
