import WindowFold.Proofs.Filling
import WindowFold.Proofs.Saturation

/-! Why aggregators refuse rows of the types that they were made for. One reason is a
column that is not there; the other, columns that are not those of a partial result. -/
namespace WindowFold

/-- Where the outcome is a failure, it is one of these. -/
def FailsFor {α : Type} (grounds : Failure → Prop) (outcome : Except Failure α) : Prop :=
  ∀ e, outcome = .error e → grounds e

section
variable {α β : Type} {grounds others : Failure → Prop} {outcome : Except Failure α}

instance [DecidablePred grounds] : Decidable (FailsFor grounds outcome) :=
  match outcome with
  | .ok _ => isTrue nofun
  | .error e => decidable_of_iff (grounds e)
      ⟨fun holds _ same => Except.error.inj same ▸ holds, fun all => all e rfl⟩

theorem failsFor_ok (x : α) : FailsFor grounds (.ok x : Except Failure α) := nofun

theorem FailsFor.map (fails : FailsFor grounds outcome) (f : α → β) :
    FailsFor grounds (outcome.map f) := by
  cases outcome with
  | ok x => exact failsFor_ok _
  | error e =>
    intro other same
    cases same
    exact fails e rfl

/-- A failure is passed on as it is. -/
theorem FailsFor.error {e : Failure} (fails : FailsFor grounds outcome)
    (failed : outcome = .error e) : FailsFor grounds (.error e : Except Failure β) := by
  intro other same
  cases same
  exact fails e failed

theorem FailsFor.imp (fails : FailsFor grounds outcome) (weaker : ∀ e, grounds e → others e) :
    FailsFor others outcome :=
  fun e failed => weaker e (fails e failed)

end

theorem Scalar.failsFor_toFloat64? (s : Scalar) :
    FailsFor (fun e => e = .columnMismatch ∧ s.type.isNumeric = false) s.toFloat64? := by
  rw [toFloat64?]
  split
  · exact failsFor_ok _
  split
  · exact failsFor_ok _
  next unlike =>
    intro e failed
    cases failed
    refine ⟨rfl, ?_⟩
    cases type : s.type with
    | date32 => rfl
    | boolean | integer | float32 | float64 | utf8 =>
      rw [type] at unlike
      exact absurd rfl unlike

/-- A number of a partial result is refused only where the types are not those expected. -/
theorem Scalar.failsFor_toFloat64?_among (s : Scalar) {columns : List Scalar}
    {types : List ScalarType} (numeric : columns.map (·.type) = types → s.type.isNumeric = true) :
    FailsFor (fun e => e = .columnMismatch ∧ columns.map (·.type) ≠ types) s.toFloat64? := by
  refine s.failsFor_toFloat64?.imp ?_
  rintro e ⟨mismatch, odd⟩
  refine ⟨mismatch, fun same => ?_⟩
  rw [numeric same] at odd
  cases odd

namespace Accumulator
variable {acc : Accumulator} {columns : List Scalar}

/-- Values are read as numbers only where they are numbers. -/
theorem numeric_partialTypes {kind : AggregationKind} {type : ScalarType} {scan : Scan}
    (created : create kind type scan = .ok acc) (bySize : acc.bySize = true) :
    ∀ t ∈ acc.partialTypes, t.isNumeric = true := by
  have numeric := numeric_of_create created bySize
  unfold create at created
  split at created
  · contradiction
  cases created
  cases kind with
  | extreme =>
    intro t member
    rw [List.mem_singleton.1 member]
    exact numeric
  | count | sum | avg | minValue | maxValue | minTime | maxTime | firstValue | lastValue =>
    cases bySize

/-- A partial result with as many columns as it should have is refused for their types alone. -/
theorem failsFor_addPartial (width : columns.length = acc.partialTypes.length)
    (numeric : acc.bySize = true → ∀ t ∈ acc.partialTypes, t.isNumeric = true) :
    FailsFor (fun e => e = .columnMismatch ∧ columns.map (·.type) ≠ acc.partialTypes)
      (acc.addPartial columns).1 := by
  cases acc with
  | count n =>
    obtain ⟨s, rfl⟩ := List.length_eq_one_iff.1 width
    obtain ⟨k, read⟩ := s.toInt64?_ok
    simp only [addPartial, read]
    exact failsFor_ok _
  | sum total =>
    obtain ⟨s, rfl⟩ := List.length_eq_one_iff.1 width
    have read : FailsFor (fun e => e = .columnMismatch ∧ [s].map (·.type) ≠ [.float64])
        s.toFloat64? := by
      apply s.failsFor_toFloat64?_among
      intro types
      rw [show s.type = .float64 from List.singleton_inj.1 types]
      rfl
    simp only [addPartial]
    split
    next failed => exact read.error failed
    · exact failsFor_ok _
    · exact failsFor_ok _
  | avg rows total =>
    obtain ⟨n, x, rfl⟩ := List.length_eq_two.1 width
    obtain ⟨k, counted⟩ := n.toInt64?_ok
    have read : FailsFor (fun e => e = .columnMismatch ∧
        [n, x].map (·.type) ≠ [.int64, .float64]) x.toFloat64? := by
      apply x.failsFor_toFloat64?_among
      intro types
      rw [show x.type = .float64 from (List.cons.inj (List.cons.inj types).2).1]
      rfl
    simp only [addPartial, counted]
    split
    · exact failsFor_ok _
    split
    next failed => exact read.error failed
    · exact failsFor_ok _
  | extremum greatest type best =>
    obtain ⟨s, rfl⟩ := List.length_eq_one_iff.1 width
    exact failsFor_ok _
  | extreme type best =>
    obtain ⟨s, rfl⟩ := List.length_eq_one_iff.1 width
    have read : FailsFor (fun e => e = .columnMismatch ∧ [s].map (·.type) ≠ [type])
        s.toFloat64? := by
      apply s.failsFor_toFloat64?_among
      intro types
      rw [show s.type = type from List.singleton_inj.1 types]
      exact numeric rfl type List.mem_cons_self
    simp only [addPartial]
    split
    next failed => exact read.error failed
    · exact failsFor_ok _
    · exact failsFor_ok _
  | valueAt position scan type found =>
    obtain ⟨s, time, rfl⟩ := List.length_eq_two.1 width
    rw [addPartial_valueAt]
    exact failsFor_ok _
  | timeAt position scan found =>
    obtain ⟨time, rfl⟩ := List.length_eq_one_iff.1 width
    rw [addPartial_timeAt]
    exact failsFor_ok _

end Accumulator

namespace Aggregator
variable {a b : Aggregator} {types : List ScalarType} {scan : Scan} {block : Block}
  {blocks : List Block}

/-- The columns that it reads, if it reads partial results, are those of one. -/
def Matches (types : List ScalarType) (a : Aggregator) : Prop :=
  a.step.readsRows = false → a.inputs.map (types[·]?) = a.accumulator.partialTypes.map some

/-- Why an aggregator refuses rows of these types. -/
inductive Refuses (types : List ScalarType) (a : Aggregator) : Failure → Prop where
  /-- The first column that is not there. -/
  | missing {column : Nat} (found : a.inputs.find? (types.length ≤ ·) = some column) :
      Refuses types a (.malformedBlock (.missingColumn a.name column types.length))
  | mismatch (unlike : ¬ a.Matches types) : Refuses types a .columnMismatch

/-- An aggregator as it is made for rows of these types. -/
structure Able (types : List ScalarType) (scan : Scan) (a : Aggregator) : Prop where
  steady : a.Steady types scan
  width : a.step.readsRows = false → a.inputs.length = a.accumulator.partialTypes.length
  numeric : a.accumulator.bySize = true → ∀ t ∈ a.accumulator.partialTypes, t.isNumeric = true

theorem able_of_create {spec : AggregationSpec} {schema : Schema}
    (created : create spec schema scan = .ok a) : a.Able schema.types scan := by
  obtain ⟨field, _, fresh, _, step, _, _, width⟩ := of_create created
  constructor
  · exact steady_of_create created
  · intro partials
    rw [width, if_neg (by simp [← step, partials])]
  · exact Accumulator.numeric_partialTypes fresh

theorem Keeps.partialTypes (keeps : Keeps a b) :
    b.accumulator.partialTypes = a.accumulator.partialTypes := by
  rw [← Accumulator.partialTypes_reset, keeps.reset, Accumulator.partialTypes_reset]

theorem Keeps.matches (keeps : Keeps a b) : b.Matches types ↔ a.Matches types := by
  rw [Matches, Matches, keeps.partialTypes, keeps.same]

theorem Able.of_keeps (able : a.Able types scan) (keeps : Keeps a b) : b.Able types scan := by
  constructor
  · exact able.steady.of_keeps keeps
  · rw [keeps.partialTypes, keeps.same]
    exact able.width
  · rw [keeps.partialTypes, ← Accumulator.bySize_reset, keeps.reset, Accumulator.bySize_reset]
    exact able.numeric

theorem Able.enter (able : a.Able types scan) (range : TimeRange) :
    (a.enter range).Able types scan where
  steady := able.steady.enter range
  width partials := (able.width partials).trans
    (congrArg List.length (Accumulator.partialTypes_reset a.accumulator).symm)
  numeric := by
    rw [Aggregator.enter, Accumulator.partialTypes_reset, Accumulator.bySize_reset]
    exact able.numeric

/-- The values that an aggregator has come to give it no other reason. -/
theorem Keeps.refuses {e : Failure} (keeps : Keeps a b) (refuses : b.Refuses types e) :
    a.Refuses types e := by
  cases refuses with
  | missing found =>
    rw [keeps.same] at found ⊢
    exact .missing found
  | mismatch unlike => exact .mismatch (mt keeps.matches.2 unlike)

theorem refuses_enter {e : Failure} {range : TimeRange}
    (refuses : (a.enter range).Refuses types e) :
    a.Refuses types e := by
  cases refuses with
  | missing found => exact .missing found
  | mismatch unlike =>
    apply Refuses.mismatch
    rw [Matches, Aggregator.enter, Accumulator.partialTypes_reset] at unlike
    exact unlike

/-- What a row has in the columns of a partial result. -/
theorem types_taking {r : Row} (same : r.types = types)
    (columns : a.inputs.map (types[·]?) = a.accumulator.partialTypes.map some) :
    (a.taking r).map (·.type) = a.accumulator.partialTypes := by
  have each := map_eq_map_iff.1 columns
  rw [taking, List.map_map, ← List.map_id a.accumulator.partialTypes]
  apply map_eq_map_iff.2
  apply each.imp
  intro c type found
  obtain ⟨bound, there⟩ := List.getElem?_eq_some_iff.1 found
  rw [Function.comp_apply, r.cell_type c (by rw [same]; exact bound)]
  simp only [same, there]
  rfl

/-- Rows are refused one by one. -/
theorem failsFor_feedPartials {parts : List (List Scalar)}
    (width : ∀ columns ∈ parts, columns.length = a.accumulator.partialTypes.length)
    (numeric : a.accumulator.bySize = true → ∀ t ∈ a.accumulator.partialTypes, t.isNumeric = true) :
    FailsFor (fun e => e = .columnMismatch ∧
        ∃ columns ∈ parts, columns.map (·.type) ≠ a.accumulator.partialTypes)
      (a.feedPartials parts).1 := by
  induction parts generalizing a with
  | nil => exact failsFor_ok _
  | cons columns rest ih =>
    have first := Accumulator.failsFor_addPartial (width columns List.mem_cons_self) numeric
    have reset := Accumulator.reset_addPartial a.accumulator columns
    rw [feedPartials]
    rcases added : (a.accumulator.addPartial columns).1 with e | _
    · simp only [added]
      rw [added] at first
      intro other same
      cases same
      obtain ⟨mismatch, unlike⟩ := first e rfl
      exact ⟨mismatch, columns, List.mem_cons_self, unlike⟩
    · simp only [added]
      have types : (a.accumulator.addPartial columns).2.partialTypes =
        a.accumulator.partialTypes := by
        rw [← Accumulator.partialTypes_reset, reset, Accumulator.partialTypes_reset]
      have later := @ih { a with accumulator := (a.accumulator.addPartial columns).2 }
        (fun other member => by
          rw [types]
          exact width other (List.mem_cons_of_mem _ member))
        (by
          rw [types, ← Accumulator.bySize_reset, reset, Accumulator.bySize_reset]
          exact numeric)
      rw [types] at later
      refine later.imp ?_
      rintro e ⟨mismatch, other, member, unlike⟩
      exact ⟨mismatch, other, List.mem_cons_of_mem _ member, unlike⟩

theorem Able.failsFor_feedBlock (able : a.Able types scan) (same : block.schema.types = types)
    (ordered : scan.Ordered block.rows) : FailsFor (a.Refuses types) (a.feedBlock block).1 := by
  rcases able.steady with reads | gathers
  · obtain ⟨stop, b, fed, _⟩ := reads.feedBlock same
    rw [fed]
    exact failsFor_ok _
  · rw [gathers.feedBlock_eq same ordered]
    apply FailsFor.map
    rw [feedTyped]
    split
    next column found =>
      intro e failed
      split at failed
      · cases failed
      · cases failed
        exact .missing found
    next =>
      have width : ∀ columns ∈ (block.rows.filter (Row.within a.range)).map a.taking,
          columns.length = a.accumulator.partialTypes.length := by
        intro columns member
        obtain ⟨r, _, rfl⟩ := List.mem_map.1 member
        rw [taking, List.length_map]
        exact able.width gathers.readsPartials
      refine (failsFor_feedPartials width able.numeric).imp ?_
      rintro e ⟨rfl, columns, member, unlike⟩
      apply Refuses.mismatch
      intro alike
      obtain ⟨r, inside, rfl⟩ := List.mem_map.1 member
      have own := (block.row_types r (List.mem_of_mem_filter inside)).trans same
      exact unlike (types_taking own (alike gathers.readsPartials))

theorem Able.keeps_feedBlock (able : a.Able types scan) (same : block.schema.types = types)
    (ordered : scan.Ordered block.rows) : Keeps a (a.feedBlock block).2 :=
  able.steady.keeps_feedBlock same ordered

theorem Able.feedBlocks (able : a.Able types scan) (fit : Fit types scan blocks) :
    FailsFor (a.Refuses types) (a.feedBlocks blocks).1 ∧ Keeps a (a.feedBlocks blocks).2 := by
  induction blocks generalizing a with
  | nil => exact ⟨failsFor_ok _, .refl a⟩
  | cons block rest ih =>
    obtain ⟨same, ordered⟩ := fit block List.mem_cons_self
    have fails := able.failsFor_feedBlock same ordered
    have keeps := able.keeps_feedBlock same ordered
    rw [Aggregator.feedBlocks]
    rcases fed : a.feedBlock block with ⟨e | stop, b⟩
    · rw [fed] at fails keeps
      exact ⟨fails.error rfl, keeps⟩
    · rw [fed] at keeps
      obtain ⟨later, last⟩ := ih (able.of_keeps keeps)
        fun other member => fit other (List.mem_cons_of_mem _ member)
      exact ⟨later.imp fun _ => keeps.refuses, keeps.trans last⟩

end Aggregator

section
variable {fresh aggregators : List Aggregator} {types : List ScalarType} {scan : Scan}
  {range : TimeRange} {block : Block} {blocks : List Block}

/-- Why one of these aggregators refuses rows of these types. -/
def Refused (types : List ScalarType) (aggregators : List Aggregator) (e : Failure) : Prop :=
  ∃ a ∈ aggregators, a.Refuses types e

theorem Refused.tail {a : Aggregator} {e : Failure} (refused : Refused types aggregators e) :
    Refused types (a :: aggregators) e := by
  obtain ⟨b, member, refuses⟩ := refused
  exact ⟨b, List.mem_cons_of_mem _ member, refuses⟩

theorem Entered.able (entered : Entered fresh range aggregators)
    (able : ∀ a ∈ fresh, a.Able types scan) : ∀ a ∈ aggregators, a.Able types scan := by
  intro b member
  rw [Entered, enterAll, List.forall₂_map_left_iff] at entered
  obtain ⟨a, listed, kept⟩ := exists_left entered member
  exact ((able a listed).enter range).of_keeps kept

theorem Entered.refused {e : Failure} (entered : Entered fresh range aggregators)
    (refused : Refused types aggregators e) : Refused types fresh e := by
  obtain ⟨b, member, refuses⟩ := refused
  rw [Entered, enterAll, List.forall₂_map_left_iff] at entered
  obtain ⟨a, listed, kept⟩ := exists_left entered member
  exact ⟨a, listed, Aggregator.refuses_enter (kept.refuses refuses)⟩

namespace WindowStage

theorem failsFor_feedOpen (able : ∀ a ∈ aggregators, a.Able types scan)
    (same : block.schema.types = types) (ordered : scan.Ordered block.rows) :
    FailsFor (Refused types aggregators) (feedOpen block aggregators).1 := by
  induction aggregators with
  | nil => exact failsFor_ok _
  | cons a rest ih =>
    have own := (able a List.mem_cons_self).failsFor_feedBlock same ordered
    have others := ih fun b member => able b (List.mem_cons_of_mem _ member)
    rw [feedOpen]
    split
    · exact others.imp fun _ => Refused.tail
    split
    next failed =>
      refine (own.error (congrArg Prod.fst failed)).imp ?_
      intro e refuses
      exact ⟨a, List.mem_cons_self, refuses⟩
    next => exact (others.imp fun _ => Refused.tail).map _

end WindowStage

theorem Filling.failsFor_feed {f : Filling} (able : ∀ a ∈ f.aggregators, a.Able types scan)
    (fit : Aggregator.Fit types scan f.kept.toList) (range : TimeRange) :
    FailsFor (Refused types f.aggregators) (f.feed scan range).1 := by
  rw [feed]
  split
  · exact failsFor_ok _
  split
  · exact failsFor_ok _
  next block kept =>
  split
  · exact failsFor_ok _
  obtain ⟨same, ordered⟩ := fit block (by rw [kept]; exact List.mem_cons_self)
  have fed := WindowStage.failsFor_feedOpen able
    ((congrArg Schema.types (block.schema_skipTo range scan)).trans same)
    (Block.ordered_skipTo ordered range)
  dsimp only
  split
  next failed => exact fed.error (congrArg Prod.fst failed)
  next => exact failsFor_ok _

theorem MergeStage.feedAll_able (able : ∀ a ∈ aggregators, a.Able types scan)
    (fit : Aggregator.Fit types scan blocks) :
    FailsFor (Refused types aggregators) (feedAll blocks aggregators).1 ∧
      List.Forall₂ Aggregator.Keeps aggregators (feedAll blocks aggregators).2 := by
  induction aggregators with
  | nil => exact ⟨failsFor_ok _, .nil⟩
  | cons a rest ih =>
    obtain ⟨fails, keeps⟩ := (able a List.mem_cons_self).feedBlocks fit
    obtain ⟨others, kept⟩ := ih fun b member => able b (List.mem_cons_of_mem _ member)
    rw [feedAll]
    rcases fed : a.feedBlocks blocks with ⟨e | _, b⟩
    · rw [fed] at fails keeps
      constructor
      · refine (fails.error rfl).imp ?_
        intro e refuses
        exact ⟨a, List.mem_cons_self, refuses⟩
      · exact .cons keeps (List.forall₂_same.2 fun b _ => .refl b)
    · rw [fed] at keeps
      exact ⟨others.imp fun _ => Refused.tail, .cons keeps kept⟩

end
end WindowFold
