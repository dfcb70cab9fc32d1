import WindowFold.Proofs.PollAnswers
import WindowFold.Proofs.Shapes

/-! What is left of a tree over blocks that are all there from the start: the windows
that have no row yet, and the blocks. A pull that does not fail uses up some of it. -/
namespace WindowFold
variable {σ : Type}

/-- An answer and no failure, where a child was pulled. -/
def Deed.Answered : Deed σ → Prop
  | pulled _ _ answer => ∃ given, answer = .ok given
  | computed .. => True

/-- A stage that has windows left closes some of them, or it pulls a child. -/
theorem Accounts.spends {todo left : List Window} {answer : Answer} {pulls : Nat}
    (accounts : Accounts todo left answer) (some_ : todo ≠ [])
    (waits : answer = .notReady → 0 < pulls) : left.length < todo.length + pulls := by
  have rows := congrArg List.length accounts.rows
  simp only [List.length_append, List.length_map] at rows
  cases answer with
  | block block =>
    have given : 0 < block.rows.length := List.length_pos_iff.2 (accounts.block block rfl)
    have same : (Answer.block block).rows.length = block.rows.length := rfl
    omega
  | notReady =>
    have waited := waits rfl
    omega
  | endOfStream => exact absurd (accounts.endOfStream rfl) some_

namespace WindowStage
variable {hasNext : σ → Except Failure Bool} {pull : σ → Attempt σ Answer} {w v : WindowStage}
  {child after : σ} {good : σ → Prop}

/-- A call that does not fail changes the child by what its pulls come to. -/
theorem changes_next (size : σ → Int) (step : Int) (running : w.closed = false) (fine : good child)
    (changes : hasNext child = .ok true → ∀ answer, (pull child).1 = .ok answer →
      good (pull child).2 ∧ size (pull child).2 ≤ size child + step)
    {answer : Answer} (given : w.next hasNext pull child = (.ok answer, v, after)) :
    good after ∧ size after ≤ size child + (w.pulls hasNext pull child).length * step := by
  have pulling := w.next_pulling running hasNext pull child
  rw [given] at pulling
  generalize w.pulls hasNext pull child = pulls at pulling ⊢
  cases pulling with
  | none => exact ⟨fine, by simp⟩
  | once _ _ more _ failed _ =>
    rcases pulled : (pull child).1 with e | first
    · cases failed e pulled
    · simpa using changes more first pulled

end WindowStage

namespace MergeStage
variable {hasNext : σ → Except Failure Bool} {scan : Scan} {m n : MergeStage}
  {lanes after : List (Lane σ)} {deeds : List (Deed σ)} {good : σ → Prop} {size : σ → Int}
  {step : Int}

/-- A child that fails makes the filling of the inlets fail. -/
theorem answered_prepare {go : Bool} (prepared : (prepare hasNext scan lanes).1 = .ok go)
    (place : Nat) : ∀ deed ∈ prepareDeeds hasNext scan place lanes, deed.Answered := by
  induction lanes generalizing place with
  | nil => exact List.forall_mem_nil _
  | cons lane rest ih =>
    have fills := lane.fills hasNext scan place
    rw [prepare_cons] at prepared
    rw [prepareDeeds, List.forall_mem_append]
    generalize lane.fill hasNext scan = filled, lane.fillDeeds hasNext place = deeds
      at fills prepared ⊢
    obtain ⟨outcome, x⟩ := filled
    have first : ∀ deed ∈ deeds, deed.Answered := by
      cases fills with
      | ready | failed | noted | spent => exact List.forall_mem_nil _
      | pulled =>
        intro deed member
        obtain rfl := List.mem_singleton.1 member
        rcases answered : (lane.pull lane.inlet.child).1 with e | given
        · rw [answered] at prepared
          cases prepared
        · exact ⟨given, rfl⟩
    cases outcome with
    | none => exact ⟨first, ih prepared (place + 1)⟩
    | some => exact ⟨first, List.forall_mem_nil _⟩

/-- A child that fails makes the call fail. -/
theorem answered_closeWindows {windows : Nat}
    (closing : m.closeWindows hasNext windows lanes = (.ok (), n, after)) :
    ∀ deed ∈ m.deedsWithin hasNext windows lanes, deed.Answered := by
  induction windows generalizing m lanes with
  | zero => exact List.forall_mem_nil _
  | succ windows ih =>
    rw [closeWindows] at closing
    rw [deedsWithin]
    split at closing
    next full => simp [full]
    next roomy =>
    rw [if_neg roomy, List.forall_mem_append]
    have filling : ∀ go, (prepare hasNext m.scan lanes).1 = .ok go →
        ∀ deed ∈ prepareDeeds hasNext m.scan 0 lanes, deed.Answered :=
      fun _ prepared => answered_prepare prepared 0
    rcases prepared : prepare hasNext m.scan lanes with ⟨e | _ | _, filled⟩
    all_goals rw [prepared] at closing filling
    · cases closing
    · exact ⟨filling _ rfl, List.forall_mem_nil _⟩
    refine ⟨filling _ rfl, ?_⟩
    dsimp only at closing ⊢
    rcases entered : m.enterWindow with _ | ⟨window, o⟩
    · exact List.forall_mem_nil _
    rw [entered] at closing
    dsimp only at closing ⊢
    rw [List.forall_mem_cons]
    refine ⟨trivial, ?_⟩
    rcases made : o.closeWindow filled window with ⟨e | _, p, used⟩
    all_goals rw [made] at closing
    · cases closing
    · exact ih closing

/-- What pulling the child of a lane comes to. It is pulled at most once in a call, so this
need not be known of the child that a pull leaves. -/
structure Fit (hasNext : σ → Except Failure Bool) (good : σ → Prop) (size : σ → Int) (step : Int)
    (lane : Lane σ) : Prop where
  fine : good lane.inlet.child
  changes : lane.inlet.mayPull = true → hasNext lane.inlet.child = .ok true →
    ∀ answer, (lane.pull lane.inlet.child).1 = .ok answer →
      good (lane.pull lane.inlet.child).2 ∧
        size (lane.pull lane.inlet.child).2 ≤ size lane.inlet.child + step

/-- The size of all children. -/
def totalOf (size : σ → Int) (inlets : List (Inlet σ)) : Int :=
  (inlets.map fun inlet => size inlet.child).sum

theorem totalOf_set (size : σ → Int) {place : Nat} {lane : Lane σ}
    (at_ : lanes[place]? = some lane) (x : Lane σ) :
    totalOf size ((lanes.set place x).map (·.inlet)) + size lane.inlet.child =
      totalOf size (lanes.map (·.inlet)) + size x.inlet.child := by
  induction lanes generalizing place with
  | nil => cases at_
  | cons first rest ih =>
    cases place with
    | zero =>
      cases at_
      simp only [totalOf, List.set_cons_zero, List.map_cons, List.sum_cons]
      omega
    | succ place =>
      have later := ih at_
      simp only [totalOf, List.set_cons_succ, List.map_cons, List.sum_cons] at later ⊢
      omega

theorem totalOf_natCast (size : σ → Nat) (inlets : List (Inlet σ)) :
    totalOf (fun s => size s) inlets = (inlets.map fun inlet => size inlet.child).sum := by
  rw [totalOf, Nat.cast_list_sum, List.map_map]
  rfl

theorem totalOf_neg (size : σ → Int) (inlets : List (Inlet σ)) :
    totalOf (fun s => -size s) inlets = -totalOf size inlets := by
  rw [totalOf, totalOf, List.sum_neg, List.map_map]
  rfl

theorem Act.changes (act : Act hasNext scan lanes deeds after)
    (fit : ∀ lane ∈ lanes, Fit hasNext good size step lane)
    (answered : ∀ deed ∈ deeds, deed.Answered) :
    (∀ lane ∈ after, Fit hasNext good size step lane) ∧
      totalOf size (after.map (·.inlet)) ≤
        totalOf size (lanes.map (·.inlet)) + (deeds.filterMap Deed.place?).length * step := by
  cases act with
  | @noted place lane at_ =>
    have own := fit lane (List.mem_of_getElem? at_)
    have put := totalOf_set size at_ { lane with inlet := { lane.inlet with ended := true } }
    constructor
    · intro x member
      rcases List.mem_or_eq_of_mem_set member with old | rfl
      · exact fit x old
      · exact ⟨own.fine, own.changes⟩
    · rw [add_right_cancel put]
      simp
  | @pulled place lane at_ _ _ more may =>
    have own := fit lane (List.mem_of_getElem? at_)
    obtain ⟨given, answer⟩ := answered _ List.mem_cons_self
    obtain ⟨fine, changed⟩ := own.changes may more given answer
    have put : totalOf size _ + size lane.inlet.child =
        totalOf size _ + size (lane.pull lane.inlet.child).2 :=
      totalOf_set size at_ { lane with inlet := .given scan (lane.pull lane.inlet.child) }
    constructor
    · intro x member
      rcases List.mem_or_eq_of_mem_set member with old | rfl
      · exact fit x old
      · exact ⟨fine, fun spent => absurd spent Bool.false_ne_true⟩
    · change _ ≤ _ + (1 : Int) * step
      omega
  | computed window closes =>
    have idle : ([.computed window (lanes.map (·.inlet)) closes] : List (Deed σ)).filterMap
        Deed.place? = [] := rfl
    rw [idle]
    cases closes with
    | false => exact ⟨fit, by simp⟩
    | true =>
      rw [if_pos rfl]
      constructor
      · refine List.forall_mem_map.2 fun lane member => ?_
        exact ⟨(fit lane member).fine, (fit lane member).changes⟩
      · simp only [totalOf, List.map_map, List.length_nil, Int.natCast_zero, Int.zero_mul,
          Int.add_zero]
        exact Int.le_refl _

theorem Course.changes (course : Course hasNext scan lanes deeds after)
    (fit : ∀ lane ∈ lanes, Fit hasNext good size step lane)
    (answered : ∀ deed ∈ deeds, deed.Answered) :
    (∀ lane ∈ after, Fit hasNext good size step lane) ∧
      totalOf size (after.map (·.inlet)) ≤
        totalOf size (lanes.map (·.inlet)) + (deeds.filterMap Deed.place?).length * step := by
  induction course with
  | idle => exact ⟨fit, by simp⟩
  | act head _ ih =>
    rw [List.forall_mem_append] at answered
    obtain ⟨kept, first⟩ := head.changes fit answered.1
    obtain ⟨last, later⟩ := ih kept answered.2
    refine ⟨last, later.trans ?_⟩
    rw [List.filterMap_append, List.length_append, Int.natCast_add, Int.add_mul]
    omega

/-- A call that does not fail changes the children by what its pulls come to. -/
theorem changes_next (running : m.closed = false)
    (fit : ∀ lane ∈ lanes, Fit hasNext good size step lane.anew)
    {answer : Answer} {inlets : List (Inlet σ)}
    (given : m.next hasNext lanes = (.ok answer, n, inlets)) :
    (∀ inlet ∈ inlets, good inlet.child) ∧
      totalOf size inlets ≤ totalOf size (lanes.map (·.inlet)) +
        ((m.deeds hasNext lanes).filterMap Deed.place?).length * step := by
  obtain ⟨x, buffer, filled, closing, _⟩ := next_eq_ok running given
  have answered := answered_closeWindows closing
  obtain ⟨after, course, same, _⟩ := next_course running hasNext lanes
  rw [given] at same
  obtain rfl : inlets = after.map (·.inlet) := same
  rw [deeds, if_neg (by simp [running])] at course ⊢
  obtain ⟨last, changed⟩ := course.changes (List.forall_mem_map.2 fit) answered
  refine ⟨List.forall_mem_map.2 fun lane member => (last lane member).fine, ?_⟩
  have start : totalOf size ((lanes.map Lane.anew).map (·.inlet)) =
      totalOf size (lanes.map (·.inlet)) := by
    simp only [totalOf, List.map_map]
    rfl
  rw [start] at changed
  exact changed

end MergeStage

namespace Tree

mutual

/-- A sum over the sources and the stages of a tree. -/
def total (ofSource : σ → Nat) (ofWindow : WindowStage → Nat) (ofMerge : MergeStage → Nat) :
    Tree σ → Nat
  | source s => ofSource s
  | window w child => ofWindow w + child.total ofSource ofWindow ofMerge
  | merge m inlets => ofMerge m + inletsTotal ofSource ofWindow ofMerge inlets

def inletsTotal (ofSource : σ → Nat) (ofWindow : WindowStage → Nat) (ofMerge : MergeStage → Nat) :
    List (Inlet (Tree σ)) → Nat
  | [] => 0
  | inlet :: rest =>
    inletTotal ofSource ofWindow ofMerge inlet + inletsTotal ofSource ofWindow ofMerge rest

def inletTotal (ofSource : σ → Nat) (ofWindow : WindowStage → Nat) (ofMerge : MergeStage → Nat) :
    Inlet (Tree σ) → Nat
  | ⟨child, _, _, _⟩ => child.total ofSource ofWindow ofMerge

end

variable {ofSource : σ → Nat} {ofWindow : WindowStage → Nat} {ofMerge : MergeStage → Nat}

theorem total_merge (m : MergeStage) (inlets : List (Inlet (Tree σ))) :
    (merge m inlets).total ofSource ofWindow ofMerge =
      ofMerge m + (inlets.map (·.child.total ofSource ofWindow ofMerge)).sum := by
  have all : inletsTotal ofSource ofWindow ofMerge inlets =
      (inlets.map (·.child.total ofSource ofWindow ofMerge)).sum := by
    induction inlets with
    | nil => rw [inletsTotal]; rfl
    | cons inlet rest ih =>
      rw [inletsTotal, inletTotal.eq_def, ih]
      rfl
  rw [total, all]

/-- Windows of all stages that have no row yet. -/
def windows (tree : Tree σ) : Nat :=
  tree.total (fun _ => 0) WindowStage.windowsLeft MergeStage.windowsLeft

/-- Sources and stages. -/
def operators (tree : Tree σ) : Nat := tree.total (fun _ => 1) (fun _ => 1) (fun _ => 1)

theorem operators_pos (tree : Tree σ) : 0 < tree.operators := by
  cases tree with
  | source => exact Nat.one_pos
  | window w child => exact Nat.add_pos_left Nat.one_pos _
  | merge m inlets => exact Nat.add_pos_left Nat.one_pos _

end Tree

/-- The blocks to come from a source that has them all at hand. -/
def Source.blocksLeft : Source → Nat
  | replay r => r.blocks.length
  | exchange _ | script _ => 0

namespace Tree

def blocks (tree : Tree Source) : Nat := tree.total Source.blocksLeft (fun _ => 0) (fun _ => 0)

/-- Windows and blocks. -/
def left (tree : Tree Source) : Nat :=
  tree.total Source.blocksLeft WindowStage.windowsLeft MergeStage.windowsLeft

theorem left_eq (tree : Tree Source) : tree.left = tree.windows + tree.blocks := by
  induction tree using induct with
  | source s => exact (Nat.zero_add _).symm
  | window w child ih =>
    change w.windowsLeft + child.left = w.windowsLeft + child.windows + (0 + child.blocks)
    omega
  | merge m inlets ih =>
    rw [left, windows, blocks, total_merge, total_merge, total_merge, Nat.zero_add, Nat.add_assoc,
      ← List.sum_map_add]
    exact congrArg (m.windowsLeft + ·.sum) (List.map_congr_left ih)

/-- A driver has the patience to use up all of it. -/
theorem left_le_work (tree : Tree Source) : tree.left ≤ tree.work := by
  induction tree using induct with
  | source s => cases s <;> simp [left, total, work, Source.blocksLeft, Operator.work]
  | window w child ih =>
    change w.windowsLeft + child.left ≤ w.windowsLeft + child.work + 1
    omega
  | merge m inlets ih =>
    have all : (inlets.map (·.child.left)).sum ≤ inletsWork inlets := by
      induction inlets with
      | nil => exact Nat.zero_le _
      | cons inlet rest further =>
        rw [List.forall_mem_cons] at ih
        have later := further ih.2
        rw [inletsWork, inletWork.eq_def, List.map_cons, List.sum_cons]
        have first : inlet.child.left ≤ inlet.child.work := ih.1
        dsimp only
        omega
    rw [left, total_merge, work]
    change m.windowsLeft + (inlets.map (·.child.left)).sum ≤ _
    omega

theorem left_window (w : WindowStage) (child : Tree Source) :
    (window w child).left = w.todo.length + child.left :=
  congrArg (· + child.left) w.windowsLeft_eq

theorem left_merge (m : MergeStage) (inlets : List (Inlet (Tree Source))) :
    (merge m inlets).left = m.todo.length + (inlets.map (·.child.left)).sum :=
  (total_merge m inlets).trans (congrArg (· + _) m.windowsLeft_todo)

/-- A stage directly over sources. -/
inductive Flat : Tree σ → Prop where
  | window (w : WindowStage) (s : σ) : Flat (.window w (.source s))
  | merge (m : MergeStage) {inlets : List (Inlet (Tree σ))}
      (below : ∀ inlet ∈ inlets, ∃ s, inlet.child = .source s) : Flat (.merge m inlets)

/-- The pulls that all sources have counted. -/
def calls (tree : Tree (Recorded σ)) : Nat :=
  tree.total (fun r => r.pulled.length) (fun _ => 0) (fun _ => 0)

theorem calls_merge (m : MergeStage) (inlets : List (Inlet (Tree (Recorded σ)))) :
    (merge m inlets).calls = (inlets.map (·.child.calls)).sum :=
  (total_merge m inlets).trans (Nat.zero_add _)

section
variable [Operator σ] {tree : Tree (Recorded σ)}

theorem calls_source (r : Recorded σ) : (source r).next.2 = source (Operator.next r).2 ∧
    (source r).next.2.calls = (source r).calls + 1 :=
  ⟨rfl, r.pulled_next⟩

/-- The sources under a stage count each pull that is told of a call, and no other. -/
theorem Flat.calls_next (flat : tree.Flat) {answer : Answer} (given : tree.next.1 = .ok answer) :
    tree.next.2.Flat ∧ tree.next.2.calls = tree.calls + tree.pulled.length := by
  have running := running_of_next given
  cases flat with
  | window w r =>
    have pulling := w.next_pulling running hasNext next (source r)
    rw [next_window_live, pulled]
    generalize w.pulls hasNext next (source r) = pulls, w.next hasNext next (source r) = called
      at pulling ⊢
    obtain ⟨outcome, v, after⟩ := called
    cases pulling with
    | none => exact ⟨.window v r, rfl⟩
    | once =>
      obtain ⟨same, counted⟩ := calls_source r
      refine ⟨same ▸ .window v _, ?_⟩
      change 0 + (source r).next.2.calls = 0 + (source r).calls + 1
      rw [counted, Nat.add_assoc]
  | @merge m inlets below =>
    rw [next_merge_live] at given ⊢
    rcases called : m.next hasNext (live inlets) with ⟨outcome, n, after⟩
    rw [called] at given
    obtain rfl : outcome = .ok answer := given
    have each : ∀ inlet ∈ inlets, (∃ r, inlet.child.next.2 = source r) ∧
        inlet.child.next.2.calls = inlet.child.calls + 1 := by
      intro inlet member
      obtain ⟨r, same⟩ := below inlet member
      rw [same]
      exact ⟨⟨_, (calls_source r).1⟩, (calls_source r).2⟩
    -- The count is bounded from above, and from below by way of its negative.
    have most : ∀ lane ∈ live inlets, MergeStage.Fit hasNext (fun t => ∃ r, t = source r)
        (fun t => t.calls) 1 lane.anew := by
      refine List.forall_mem_map.2 fun inlet member => ⟨below inlet member, fun _ _ _ _ => ?_⟩
      obtain ⟨flat, counted⟩ := each inlet member
      have more : (inlet.child.next.2.calls : Int) ≤ inlet.child.calls + 1 := by omega
      exact ⟨flat, more⟩
    have least : ∀ lane ∈ live inlets, MergeStage.Fit hasNext (fun t => ∃ r, t = source r)
        (fun t => -(t.calls : Int)) (-1) lane.anew := by
      refine List.forall_mem_map.2 fun inlet member => ⟨below inlet member, fun _ _ _ _ => ?_⟩
      obtain ⟨flat, counted⟩ := each inlet member
      have more : -(inlet.child.next.2.calls : Int) ≤ -inlet.child.calls + -1 := by omega
      exact ⟨flat, more⟩
    obtain ⟨still, upper⟩ := MergeStage.changes_next running most called
    obtain ⟨_, lower⟩ := MergeStage.changes_next running least called
    rw [inlets_live, MergeStage.totalOf_natCast, MergeStage.totalOf_natCast] at upper
    rw [inlets_live, MergeStage.totalOf_neg, MergeStage.totalOf_neg, MergeStage.totalOf_natCast,
      MergeStage.totalOf_natCast] at lower
    refine ⟨.merge n still, ?_⟩
    change (Tree.merge n after).calls = _
    rw [calls_merge, calls_merge, pulled]
    omega

end

/-- Every stage is open, and the sources have all their blocks. -/
inductive Going : Tree Source → Prop where
  | replay {r : Replay} (running : r.closed = false) : Going (.source (.replay r))
  | window {limits : Limits} {w : WindowStage} {child : Tree Source} (running : w.closed = false)
      (sized : w.buffer.Sized limits) (below : Going child) : Going (.window w child)
  | merge {limits : Limits} {m : MergeStage} {inlets : List (Inlet (Tree Source))}
      (running : m.closed = false) (sized : m.buffer.Sized limits)
      (below : ∀ inlet ∈ inlets, Going inlet.child) : Going (.merge m inlets)

variable {tree : Tree Source}

/-- There is nothing to wait for. -/
theorem Going.ready (going : tree.Going) : tree.readiness = (.ready, tree) := by
  induction going with
  | replay => rfl
  | window _ _ _ ih =>
    rw [readiness]
    split
    · rw [ih]
      rfl
    · rfl
  | @merge _ m inlets running _ _ ih =>
    have asked : inlets.map Inlet.ask = inlets := by
      conv_rhs => rw [← List.map_id inlets]
      refine List.map_congr_left fun inlet member => ?_
      rw [Inlet.ask, show Operator.readiness inlet.child = _ from ih inlet member]
      exact ite_self _
    have ready : ∀ inlet ∈ inlets, inlet.ended = false →
        (Operator.readiness inlet.child).1 = .ready :=
      fun inlet member _ => congrArg Prod.fst (ih inlet member)
    rw [readiness, if_neg (by simp [running]), inletsReadiness_eq ready, asked]

/-- A pull of the tree while something is left, if it does not fail, leaves it at work with
less left. -/
def Spends (tree : Tree Source) : Prop :=
  tree.hasNext = .ok true → ∀ answer, tree.next.1 = .ok answer →
    tree.next.2.Going ∧ tree.next.2.left < tree.left

theorem spends_replay {r : Replay} (running : r.closed = false) :
    Spends (source (.replay r)) := by
  intro more answer _
  rcases blocks : r.blocks with _ | ⟨first, rest⟩
  · have none : r.hasNext = true := Except.ok.inj more
    simp [Replay.hasNext, blocks] at none
  have taken : r.next = (.ok (.block first), { r with blocks := rest }) := by
    rw [Replay.next, if_neg (by simp [running]), blocks]
  change Going (source (.replay r.next.2)) ∧ r.next.2.blocks.length < r.blocks.length
  rw [taken, blocks]
  exact ⟨.replay running, Nat.lt_succ_self _⟩

/-- A call of a stage that has windows left closes some of them, or it pulls a child. -/
theorem shorter_next {σ : Type} [Operator σ] {tree : Tree σ} {todo : List Window} {limits : Limits}
    (sized : tree.Sized limits) (stage : tree.todo? = some todo) (more : tree.hasNext = .ok true)
    {answer : Answer} (given : tree.next.1 = .ok answer) :
    ∃ left, tree.next.2.todo? = some left ∧ tree.next.2.isClosed = false ∧
      left.length < todo.length + tree.pulled.length := by
  have running := running_of_next given
  have some_ : todo ≠ [] := by
    have told := (hasNext_stage stage).symm.trans more
    rintro rfl
    simp at told
  obtain ⟨left, same, still, accounts⟩ := accounts_next running stage given
  refine ⟨left, same, still, accounts.spends some_ fun waits => ?_⟩
  subst waits
  exact List.length_pos_iff.2 (pulled_of_notReady sized given)

theorem spends_window {w : WindowStage} {child : Tree Source} {limits : Limits}
    (sized : w.buffer.Sized limits) (below : child.Going) (spends : child.Spends) :
    Spends (window w child) := by
  intro more answer given
  have running := running_of_next given
  have whole : (window w child).Sized limits := sized
  obtain ⟨left, same, still, shorter⟩ := shorter_next whole rfl more given
  have kept := WindowStage.sized_next sized hasNext next child
  rw [next_window_live] at given same still ⊢
  rcases called : w.next hasNext next child with ⟨outcome, v, after⟩
  rw [called] at given same still kept
  obtain rfl : outcome = .ok answer := given
  obtain rfl : v.todo = left := Option.some.inj same
  have uses : child.hasNext = .ok true → ∀ answer, child.next.1 = .ok answer →
      child.next.2.Going ∧ (child.next.2.left : Int) ≤ child.left + -1 := by
    intro more answer given
    obtain ⟨fine, less⟩ := spends more answer given
    exact ⟨fine, by omega⟩
  obtain ⟨fine, spent⟩ :=
    WindowStage.changes_next (fun t : Tree Source => t.left) (-1) running below uses called
  refine ⟨.window still kept fine, ?_⟩
  change (window v after).left < _
  rw [pulled, List.length_map] at shorter
  rw [left_window, left_window]
  omega

theorem spends_merge {m : MergeStage} {inlets : List (Inlet (Tree Source))} {limits : Limits}
    (sized : m.buffer.Sized limits) (below : ∀ inlet ∈ inlets, inlet.child.Going)
    (spends : ∀ inlet ∈ inlets, inlet.child.Spends) : Spends (merge m inlets) := by
  intro more answer given
  have running := running_of_next given
  have whole : (merge m inlets).Sized limits := sized
  obtain ⟨left, same, still, shorter⟩ := shorter_next whole rfl more given
  have kept := MergeStage.sized_next sized hasNext (live inlets)
  rw [next_merge_live] at given same still ⊢
  rcases called : m.next hasNext (live inlets) with ⟨outcome, n, after⟩
  rw [called] at given same still kept
  obtain rfl : outcome = .ok answer := given
  obtain rfl : n.todo = left := Option.some.inj same
  have fit : ∀ lane ∈ live inlets,
      MergeStage.Fit hasNext Going (fun t => t.left) (-1) lane.anew := by
    refine List.forall_mem_map.2 fun inlet member => ⟨below inlet member, ?_⟩
    intro _ more answer given
    obtain ⟨fine, less⟩ := spends inlet member more answer given
    have used : (inlet.child.next.2.left : Int) ≤ inlet.child.left + -1 := by omega
    exact ⟨fine, used⟩
  obtain ⟨fine, spent⟩ := MergeStage.changes_next running fit called
  rw [inlets_live, MergeStage.totalOf_natCast, MergeStage.totalOf_natCast] at spent
  refine ⟨.merge still kept fine, ?_⟩
  change (merge n after).left < _
  rw [pulled] at shorter
  rw [left_merge, left_merge]
  omega

theorem Going.spends (going : tree.Going) : tree.Spends := by
  induction going with
  | replay running => exact spends_replay running
  | window _ sized below ih => exact spends_window sized below ih
  | merge _ sized below ih => exact spends_merge sized below ih

end Tree
end WindowFold
