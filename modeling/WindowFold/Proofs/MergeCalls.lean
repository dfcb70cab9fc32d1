import WindowFold.Proofs.MergeDeeds
import WindowFold.Proofs.Shapes

/-! How the children of a merge fare in a call: each is left alone or pulled once, for an
inlet that is empty. Children that keep the states in which they are pulled keep just those
that are told of the calls. -/
namespace WindowFold
variable {σ : Type}

namespace MergeStage
variable {hasNext : σ → Except Failure Bool} {scan : Scan} {lanes after : List (Lane σ)}
  {lane y x : Lane σ} {deeds first rest : List (Deed σ)} {place : Nat}

/-- How the child in a place fares: it is left alone, or it is pulled once. -/
inductive Fares (place : Nat) (lane x : Lane σ) (deeds : List (Deed σ)) : Prop where
  | left (none : deeds.filter (·.pulls place) = []) (same : x.inlet.child = lane.inlet.child)
      (may : x.inlet.mayPull = lane.inlet.mayPull) : Fares place lane x deeds
  | once {inlet : Inlet σ} (own : inlet.child = lane.inlet.child)
      (only : deeds.filter (·.pulls place) =
        [.pulled place inlet (lane.pull lane.inlet.child).1])
      (given : x.inlet.child = (lane.pull lane.inlet.child).2)
      (may : lane.inlet.mayPull = true) (spent : x.inlet.mayPull = false) :
      Fares place lane x deeds

/-- A child that was pulled is not pulled again. -/
theorem Fares.trans (head : Fares place lane y first) (pull : y.pull = lane.pull)
    (tail : Fares place y x rest) : Fares place lane x (first ++ rest) := by
  cases head with
  | left none same may =>
    cases tail with
    | left later still unspent =>
      refine .left ?_ (still.trans same) (unspent.trans may)
      rw [List.filter_append, none, later, List.append_nil]
    | once own only given permitted spent =>
      rw [pull, same] at only given
      refine .once (own.trans same) ?_ given (may.symm.trans permitted) spent
      rw [List.filter_append, none, only, List.nil_append]
  | once own only given may spent =>
    cases tail with
    | left later still unspent =>
      refine .once own ?_ (still.trans given) may (unspent.trans spent)
      rw [List.filter_append, only, later, List.append_nil]
    | once _ _ _ again => exact absurd (again.symm.trans spent) nofun

theorem Act.fares (act : Act hasNext scan lanes deeds after) (at_ : lanes[place]? = some lane) :
    ∃ x, after[place]? = some x ∧ x.pull = lane.pull ∧ Fares place lane x deeds := by
  cases act with
  | @noted other own there =>
    by_cases here : other = place
    · subst here
      obtain rfl : lane = own := Option.some.inj (at_.symm.trans there)
      have inside : other < lanes.length := (List.getElem?_eq_some_iff.1 at_).1
      exact ⟨_, List.getElem?_set_self inside, rfl, .left rfl rfl rfl⟩
    · exact ⟨lane, (List.getElem?_set_ne here).trans at_, rfl, .left rfl rfl rfl⟩
  | @pulled other own there _ _ _ may =>
    by_cases here : other = place
    · subst here
      obtain rfl : lane = own := Option.some.inj (at_.symm.trans there)
      have inside : other < lanes.length := (List.getElem?_eq_some_iff.1 at_).1
      refine ⟨_, List.getElem?_set_self inside, rfl, .once rfl ?_ rfl may rfl⟩
      simp [Deed.pulls]
    · refine ⟨lane, (List.getElem?_set_ne here).trans at_, rfl, .left ?_ rfl rfl⟩
      simp [Deed.pulls, here]
  | computed window closes =>
    cases closes with
    | false => exact ⟨lane, at_, rfl, .left rfl rfl rfl⟩
    | true =>
      refine ⟨{ lane with inlet := lane.inlet.skipPast window.range scan }, ?_, rfl,
        .left rfl rfl rfl⟩
      rw [if_pos rfl, List.getElem?_map, at_]
      rfl

theorem Course.fares (course : Course hasNext scan lanes deeds after)
    (at_ : lanes[place]? = some lane) :
    ∃ x, after[place]? = some x ∧ x.pull = lane.pull ∧ Fares place lane x deeds := by
  induction course generalizing lane with
  | idle => exact ⟨lane, at_, rfl, .left rfl rfl rfl⟩
  | act head _ ih =>
    obtain ⟨y, between, pull, fares⟩ := head.fares at_
    obtain ⟨x, found, same, later⟩ := ih between
    exact ⟨x, found, same.trans pull, fares.trans pull later⟩

theorem Course.length_eq (course : Course hasNext scan lanes deeds after) :
    after.length = lanes.length := by
  induction course with
  | idle => rfl
  | act head _ ih =>
    rw [ih]
    cases head with
    | noted | pulled => exact List.length_set
    | computed window closes => cases closes <;> simp

theorem fares_next (hasNext : σ → Except Failure Bool) {m : MergeStage} (running : m.closed = false)
    (at_ : lanes[place]? = some lane) :
    ∃ x : Lane σ, (m.next hasNext lanes).2.2[place]? = some x.inlet ∧
      Fares place lane.anew x (m.deeds hasNext lanes) := by
  obtain ⟨after, course, same, _⟩ := next_course running hasNext lanes
  have begun : (lanes.map Lane.anew)[place]? = some lane.anew := by
    rw [List.getElem?_map, at_]
    rfl
  obtain ⟨x, found, _, fares⟩ := course.fares begun
  refine ⟨x, ?_, fares⟩
  rw [same, List.getElem?_map, found]
  rfl

end MergeStage

namespace Recorded
variable {place : Nat} {pulled : List σ}

def lift (change : σ → σ) (r : Recorded σ) : Recorded σ :=
  { r with operator := change r.operator }

/-- The child in a place is a source that counts these pulls. -/
def Counts (place : Nat) (pulled : List σ) (inlets : List (Inlet (Tree (Recorded σ)))) : Prop :=
  ∃ inlet r, inlets[place]? = some inlet ∧ inlet.child = .source r ∧ r.pulled = pulled

/-- A change of the sources does not change what they count. -/
theorem Counts.changed {inlets : List (Inlet (Tree (Recorded σ)))}
    (counts : Counts place pulled inlets) (index : Nat) (path : List Nat) (change : σ → σ) :
    Counts place pulled
      (Tree.actInlets (fun r => ((), lift change r)) inlets index path).2 := by
  obtain ⟨inlet, r, found, child, rfl⟩ := counts
  rw [Tree.actInlets_eq]
  dsimp only
  by_cases here : index = place
  · subst here
    obtain ⟨s, acted, same⟩ : ∃ s, (Tree.act (fun r => ((), lift change r)) inlet.child path).2 =
        .source s ∧ s.pulled = r.pulled := by
      rw [child]
      cases path with
      | nil => exact ⟨lift change r, rfl, rfl⟩
      | cons next path => exact ⟨r, rfl, rfl⟩
    refine ⟨{ inlet with child := _ }, s, ?_, acted, same⟩
    rw [List.getElem?_modify_eq, found]
    rfl
  · exact ⟨inlet, r, (List.getElem?_modify_ne _ inlets here).trans found, child, rfl⟩

variable [Operator σ]

theorem Counts.checked {inlets : List (Inlet (Tree (Recorded σ)))}
    (counts : Counts place pulled inlets) (index : Nat) :
    Counts place pulled (Tree.inletsReadiness index inlets).2 := by
  obtain ⟨inlet, r, found, child, rfl⟩ := counts
  have frame := Tree.inletsReadiness_frame index inlets
  obtain ⟨inside, rfl⟩ := List.getElem?_eq_some_iff.1 found
  have bound := frame.length_eq ▸ inside
  obtain ⟨_, _, same⟩ := frame.get inside bound
  rw [List.get_eq_getElem, List.get_eq_getElem, child] at same
  rcases same with same | same
  · exact ⟨_, r, List.getElem?_eq_getElem bound, same, rfl⟩
  · exact ⟨_, (Operator.readiness r).2, List.getElem?_eq_getElem bound, same, rfl⟩

end Recorded
end WindowFold
