import WindowFold.Proofs.Folding
import WindowFold.Query

/-! What an aggregation gives is of the types that it announces, for every
function, in every phase and also where a window has no rows. -/
namespace WindowFold

namespace Accumulator

/-- The values kept are of the type that the accumulator is for. -/
def Typed : Accumulator → Prop
  | extremum _ type best => ∀ s ∈ best, s.type = type
  | extreme type best => ∀ p ∈ best, p.2.type = type
  | valueAt _ _ type found => ∀ p ∈ found, p.2.type = type
  | _ => True

/-- Values of the type are among those that the accumulator is for. -/
def Takes (acc : Accumulator) (type : ScalarType) : Prop :=
  match acc with
  | extremum _ own _ | extreme own _ | valueAt _ _ own _ => type = own
  | _ => True

variable {acc : Accumulator} {type : ScalarType}

theorem typed_reset (acc : Accumulator) : acc.reset.Typed := by
  cases acc <;> simp [reset, Typed]

@[simp] theorem takes_reset : acc.reset.Takes type ↔ acc.Takes type := by cases acc <;> rfl

theorem takes_of_create {kind : AggregationKind} {scan : Scan}
    (created : create kind type scan = .ok acc) : acc.Takes type := by
  unfold create at created
  split at created
  · contradiction
  · cases created
    cases kind <;> simp [Takes]

theorem Typed.absorb (typed : acc.Typed) {row : Timestamp × Scalar} (takes : acc.Takes row.2.type) :
    (acc.absorb row).Typed := by
  unfold Accumulator.absorb
  split
  · exact typed
  cases acc with
  | count | sum | avg | timeAt => trivial
  | extremum greatest type best =>
    intro s member
    rw [offerExtremum_eq] at member
    split at member
    · exact typed s member
    · rcases mem_choose member with kept | rfl
      · exact typed s kept
      · exact takes
  | extreme type best =>
    intro p member
    rw [offerExtreme_eq] at member
    rcases mem_choose member with kept | rfl
    · exact typed p kept
    · exact takes
  | valueAt position scan type found =>
    intro p member
    rw [offerValue_eq] at member
    rcases mem_choose member with kept | rfl
    · exact typed p kept
    · exact takes

theorem Typed.absorbAll {rows : List (Timestamp × Scalar)} (typed : acc.Typed)
    (takes : ∀ row ∈ rows, acc.Takes row.2.type) : (acc.absorbAll rows).Typed := by
  induction rows generalizing acc with
  | nil => exact typed
  | cons row rest ih =>
    refine ih (typed.absorb (takes row List.mem_cons_self)) fun other member => ?_
    rw [← takes_reset, reset_absorb, takes_reset]
    exact takes other (List.mem_cons_of_mem _ member)

@[simp] theorem reset_addPartial (acc : Accumulator) (columns : List Scalar) :
    (acc.addPartial columns).2.reset = acc.reset := by
  cases acc <;> simp only [addPartial] <;> repeat' split
  all_goals rfl

/-- Partial results of the type that the accumulator is for leave it typed. -/
theorem Typed.addPartial (typed : acc.Typed) {columns : List Scalar}
    (takes : ∀ s ∈ columns.head?, acc.Takes s.type) : (acc.addPartial columns).2.Typed := by
  cases acc with
  | count | sum | avg | timeAt =>
    simp only [Accumulator.addPartial]
    repeat' split
    all_goals trivial
  | extremum greatest type best =>
    match columns with
    | [] | _ :: _ :: _ => exact typed
    | [s] =>
      intro kept member
      simp only [offerExtremum_eq] at member
      split at member
      · exact typed kept member
      · rcases mem_choose member with before | rfl
        · exact typed kept before
        · exact takes _ rfl
  | extreme type best =>
    match columns with
    | [] | _ :: _ :: _ => exact typed
    | [s] =>
      simp only [Accumulator.addPartial]
      split
      · exact typed
      · exact typed
      next size _ =>
        intro kept member
        rw [offerExtreme_eq] at member
        rcases mem_choose member with before | rfl
        · exact typed kept before
        · exact takes _ rfl
  | valueAt position scan type found =>
    match columns with
    | [] | [_] | _ :: _ :: _ :: _ => exact typed
    | [s, time] =>
      simp only [Accumulator.addPartial]
      split
      · exact typed
      split
      · exact typed
      · exact typed
      next t _ =>
        intro kept member
        rw [offerValue_eq position found (t, s)] at member
        rcases mem_choose member with before | rfl
        · exact typed kept before
        · exact takes _ rfl

theorem Typed.result (typed : acc.Typed) : acc.result.type = acc.resultType := by
  cases acc with
  | count | sum | timeAt => rfl
  | avg rows total =>
    rw [Accumulator.result]
    split <;> rfl
  | extremum greatest type best =>
    cases best with
    | none => rfl
    | some s => exact typed s rfl
  | extreme type best =>
    cases best with
    | none => rfl
    | some p => exact typed p rfl
  | valueAt position scan type found =>
    cases found with
    | none => rfl
    | some p => exact typed p rfl

theorem Typed.partialResult (typed : acc.Typed) :
    acc.partialResult.map (·.type) = acc.partialTypes := by
  cases acc with
  | count | sum | avg | timeAt => rfl
  | extremum greatest type best =>
    cases best with
    | none => rfl
    | some s => exact congrArg (fun t => [t]) (typed s rfl)
  | extreme type best =>
    cases best with
    | none => rfl
    | some p => exact congrArg (fun t => [t]) (typed p rfl)
  | valueAt position scan type found =>
    cases found with
    | none => rfl
    | some p => exact congrArg (fun t => [t, _]) (typed p rfl)

@[simp] theorem resultType_reset (acc : Accumulator) : acc.reset.resultType = acc.resultType := by
  cases acc <;> rfl

@[simp] theorem partialTypes_reset (acc : Accumulator) :
    acc.reset.partialTypes = acc.partialTypes := by cases acc <;> rfl

end Accumulator

namespace Aggregator
variable {a : Aggregator}

theorem outputFields_types (a : Aggregator) : a.outputFields.types = a.outputTypes := by
  rw [outputFields]
  split
  next type only => simp [Schema.types, only]
  next =>
    rw [Schema.types, List.map_map]
    exact List.zipIdx_map_fst 0 _

theorem outputFields_nullable (a : Aggregator) : ∀ f ∈ a.outputFields, f.nullable = true := by
  intro f member
  rw [outputFields] at member
  split at member
  · obtain rfl := List.mem_singleton.1 member
    rfl
  · obtain ⟨p, _, rfl⟩ := List.mem_map.1 member
    rfl

theorem output_types (typed : a.accumulator.Typed) : a.output.map (·.type) = a.outputTypes := by
  rw [output, outputTypes]
  split
  · exact congrArg (fun t => [t]) typed.result
  · exact typed.partialResult

end Aggregator

theorem outputRow_types {aggregators : List Aggregator}
    (typed : ∀ a ∈ aggregators, a.accumulator.Typed) :
    (outputRow aggregators).map (·.type) = Schema.types (outputSchema aggregators).tail := by
  rw [outputSchema, List.tail_cons, outputRow, Schema.types, List.map_flatMap, List.map_flatMap]
  refine List.flatMap_congr fun a member => ?_
  rw [Aggregator.output_types (typed a member)]
  exact (Aggregator.outputFields_types a).symm

theorem outputFields_nullable {aggregators : List Aggregator} :
    ∀ f ∈ aggregators.flatMap (·.outputFields), f.nullable = true := by
  intro f member
  obtain ⟨a, _, field⟩ := List.mem_flatMap.1 member
  exact a.outputFields_nullable f field

end WindowFold
