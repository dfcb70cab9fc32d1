import WindowFold.Proofs.Dealings
import WindowFold.Proofs.PollAnswers
import WindowFold.Proofs.Shapes

/-! What closing a tree does to the operators below its top. Each of them, stage or source,
is closed once, whichever of them fail; and a closed tree turns to none of them again. -/
namespace WindowFold

/-- The first failure, if there is any. -/
def firstFailure : List (Except Failure Unit) → Except Failure Unit
  | [] => .ok ()
  | outcome :: rest =>
    match outcome with
    | .error e => .error e
    | .ok () => firstFailure rest

theorem firstFailure_append (first later : List (Except Failure Unit)) :
    firstFailure (first ++ later) =
      match firstFailure first with
      | .error e => .error e
      | .ok () => firstFailure later := by
  induction first with
  | nil => rfl
  | cons outcome rest ih =>
    cases outcome with
    | error e => rfl
    | ok => exact ih

theorem firstFailure_singleton (outcome : Except Failure Unit) :
    firstFailure [outcome] = outcome := by
  cases outcome <;> rfl

namespace WindowStage
variable {σ : Type} (hasNext : σ → Except Failure Bool) (pull : σ → Attempt σ Answer)

theorem closed_next (w : WindowStage) (child : σ) :
    (w.next hasNext pull child).2.1.closed = w.closed := by
  have lasts : Lasts hasNext pull fun v => v.closed = w.closed :=
    { enter := fun entered same => (of_enterWindow entered).2.2.2.trans same
      resolve := fun v c range same => (v.stays_resolve hasNext pull c range).closed.trans same
      leave := id
      append := fun _ => id
      start := id
      answer := fun _ => id }
  exact lasts.next rfl child

end WindowStage

namespace MergeStage
variable {σ : Type} {hasNext : σ → Except Failure Bool} {scan : Scan}
  {lanes after : List (Lane σ)} {deeds : List (Deed σ)} {P : σ → Prop}

/-- What holds of a child and still does once the child is pulled. -/
def Holds (P : σ → Prop) (lane : Lane σ) : Prop :=
  P lane.inlet.child ∧ ∀ child, P child → P (lane.pull child).2

theorem Act.holds (act : Act hasNext scan lanes deeds after) (all : ∀ lane ∈ lanes, Holds P lane) :
    ∀ lane ∈ after, Holds P lane := by
  cases act with
  | @noted _ lane at_ =>
    intro x member
    rcases List.mem_or_eq_of_mem_set member with before | rfl
    · exact all x before
    · exact all lane (List.mem_of_getElem? at_)
  | @pulled _ lane at_ =>
    intro x member
    rcases List.mem_or_eq_of_mem_set member with before | rfl
    · exact all x before
    · obtain ⟨own, keeps⟩ := all lane (List.mem_of_getElem? at_)
      exact ⟨keeps _ own, keeps⟩
  | computed window closes =>
    cases closes with
    | false => exact all
    | true => exact List.forall_mem_map.2 all

theorem Course.holds (course : Course hasNext scan lanes deeds after)
    (all : ∀ lane ∈ lanes, Holds P lane) : ∀ lane ∈ after, Holds P lane := by
  induction course with
  | idle => exact all
  | act head _ ih => exact ih (head.holds all)

end MergeStage

namespace Tree
variable {σ : Type}

/-- No stage is closed. -/
inductive Running : Tree σ → Prop where
  | source (s : σ) : Running (source s)
  | window {w : WindowStage} {child : Tree σ} (running : w.closed = false) (below : Running child) :
    Running (window w child)
  | merge {m : MergeStage} {inlets : List (Inlet (Tree σ))} (running : m.closed = false)
    (below : ∀ inlet ∈ inlets, Running inlet.child) : Running (merge m inlets)

theorem Running.act {α : Type} (f : σ → α × σ) {tree : Tree σ} (running : tree.Running)
    (path : List Nat) : (tree.act f path).2.Running := by
  induction running generalizing path with
  | source s =>
    cases path with
    | nil => exact .source _
    | cons => exact .source s
  | window running below ih =>
    rcases path with _ | ⟨_ | _, path⟩
    · exact .window running below
    · exact .window running (ih path)
    · exact .window running below
  | @merge m inlets running below ih =>
    cases path with
    | nil => exact .merge running below
    | cons index path =>
      simp only [Tree.act, actInlets_eq]
      refine .merge running fun inlet member => ?_
      obtain ⟨i, inside, rfl⟩ := List.getElem_of_mem member
      rw [List.length_modify] at inside
      rw [List.getElem_modify]
      split
      · exact ih _ (List.getElem_mem inside) path
      · exact below _ (List.getElem_mem inside)

variable [Operator σ]

theorem Running.readiness {tree : Tree σ} (running : tree.Running) :
    tree.readiness.2.Running := by
  induction running with
  | source s => exact .source _
  | window running below ih =>
    rw [Tree.readiness]
    split
    · exact .window running ih
    · exact .window running below
  | @merge m inlets running below ih =>
    rw [Tree.readiness, if_neg (by simp [running])]
    have frame := inletsReadiness_frame 0 inlets
    refine .merge running fun after member => ?_
    obtain ⟨i, inside, rfl⟩ := List.getElem_of_mem member
    have there : i < inlets.length := frame.length_eq ▸ inside
    obtain ⟨_, _, left | asked⟩ := frame.get there inside
    · exact left ▸ below _ (List.getElem_mem there)
    · exact asked ▸ ih _ (List.getElem_mem there)

theorem Running.next {tree : Tree σ} (running : tree.Running) : tree.next.2.Running := by
  induction running with
  | source s => exact .source _
  | @window w child running below ih =>
    have closed := w.closed_next hasNext (fun _ => child.next) child
    have pulling := WindowStage.next_pulling running hasNext (fun _ => child.next) child
    rw [Tree.next]
    dsimp only
    generalize w.pulls hasNext (fun _ => child.next) child = pulls,
      w.next hasNext (fun _ => child.next) child = called at closed pulling ⊢
    obtain ⟨outcome, v, after⟩ := called
    cases pulling with
    | none => exact .window (closed.trans running) below
    | once => exact .window (closed.trans running) ih
  | @merge m inlets running below ih =>
    obtain ⟨after, course, same, _, closed⟩ := MergeStage.next_course running hasNext (lanes inlets)
    have holds : ∀ lane ∈ (lanes inlets).map Lane.anew, MergeStage.Holds Running lane := by
      rw [lanes_eq, List.map_map, List.forall_mem_map]
      exact fun inlet member => ⟨below inlet member, fun _ _ => ih inlet member⟩
    rw [Tree.next]
    dsimp only
    rw [same]
    refine .merge closed (List.forall_mem_map.2 fun lane member => ?_)
    exact (course.holds holds lane member).1

theorem Running.happen {tree : Tree σ} (running : tree.Running) {event : Happening σ}
    (other : event ≠ .asked .close) : (tree.happen event).Running := by
  cases event with
  | changed path change => exact running.act _ path
  | asked request =>
    cases request with
    | hasNext => exact running
    | readiness => exact running.readiness
    | next => exact running.next
    | close => exact absurd rfl other

/-- Nothing but closing it closes a stage. -/
theorem Running.after {tree : Tree σ} (running : tree.Running) {events : List (Happening σ)}
    (unclosed : .asked .close ∉ events) : (tree.after events).Running := by
  induction events generalizing tree with
  | nil => exact running
  | cons event rest ih =>
    rw [List.mem_cons, not_or] at unclosed
    exact ih (running.happen (Ne.symm unclosed.1)) unclosed.2

theorem closeInlets_eq (inlets : List (Inlet (Tree σ))) :
    closeInlets inlets = (firstFailure (inlets.map fun inlet => inlet.child.close.1),
      inlets.map fun inlet => { inlet with child := inlet.child.close.2, held := none }) := by
  induction inlets with
  | nil => rw [closeInlets]; rfl
  | cons inlet rest ih =>
    rw [closeInlets, ih, closeInlet.eq_def]
    rfl

/-- What comes of closing the sources, from left to right. -/
def closings (tree : Tree σ) : List (Except Failure Unit) :=
  tree.sources.map fun leaf => (Operator.close leaf.2).1

/-- All sources are closed, and the first of them to fail counts. -/
theorem Running.close {tree : Tree σ} (running : tree.Running) :
    tree.close.1 = firstFailure tree.closings ∧
      tree.close.2.sources = tree.sources.map fun leaf => (leaf.1, (Operator.close leaf.2).2) := by
  induction running with
  | source s =>
    rw [Tree.close, closings, sources]
    exact ⟨(firstFailure_singleton _).symm, rfl⟩
  | @window w child running below ih =>
    obtain ⟨outcome, same⟩ := ih
    rw [Tree.close, if_neg (by simp [running])]
    dsimp only
    rw [closings, sources, sources, outcome, same, List.map_map, List.map_map, List.map_map]
    exact ⟨rfl, rfl⟩
  | @merge m inlets running below ih =>
    rw [Tree.close, if_neg (by simp [running]), closeInlets_eq, closings, sources]
    dsimp only
    rw [sources]
    -- The children that are left are numbered from any index on.
    generalize 0 = index
    clear below
    induction inlets generalizing index with
    | nil => exact ⟨rfl, rfl⟩
    | cons inlet rest again =>
      obtain ⟨first, same⟩ := ih inlet List.mem_cons_self
      obtain ⟨later, others⟩ :=
        again (fun i member => ih i (List.mem_cons_of_mem _ member)) (index + 1)
      have own : ∀ inlet : Inlet (Tree σ), inletSources inlet = inlet.child.sources := fun _ => by
        rw [inletSources.eq_def]
      rw [List.map_cons, List.map_cons, inletsSources, inletsSources, own, own, same, others,
        List.map_append, List.map_append, List.map_map, List.map_map, List.map_map,
        firstFailure_append, ← later, first]
      exact ⟨rfl, rfl⟩

end Tree

/-- The inlet with another child. -/
def Inlet.withChild {σ τ : Type} (inlet : Inlet σ) (child : τ) : Inlet τ :=
  ⟨child, inlet.held, inlet.mayPull, inlet.ended⟩

namespace Tree
variable {σ : Type}

/-- There is a stage at the top. -/
def isStage (tree : Tree σ) : Bool := tree.todo?.isSome

/-- A part of a tree, at the end of a path down from its top. -/
inductive Below : Tree σ → List Nat → Tree σ → Prop where
  | here (tree : Tree σ) : Below tree [] tree
  | window {w : WindowStage} {child part : Tree σ} {path : List Nat}
    (inside : Below child path part) : Below (window w child) (0 :: path) part
  | merge {m : MergeStage} {inlets : List (Inlet (Tree σ))} {inlet : Inlet (Tree σ)} {index : Nat}
    {part : Tree σ} {path : List Nat} (at_ : inlets[index]? = some inlet)
    (inside : Below inlet.child path part) : Below (merge m inlets) (index :: path) part

mutual

/-- The tree that is cut into stages at its top and parts below them, each of which keeps
the calls on it in mind. -/
def whole : Tree (Logged (Tree σ)) → Tree σ
  | source part => part.operator
  | window w child => window w child.whole
  | merge m inlets => merge m (inletsWhole inlets)

def inletsWhole : List (Inlet (Tree (Logged (Tree σ)))) → List (Inlet (Tree σ))
  | [] => []
  | inlet :: rest => inletWhole inlet :: inletsWhole rest

def inletWhole : Inlet (Tree (Logged (Tree σ))) → Inlet (Tree σ)
  | ⟨child, held, mayPull, ended⟩ => ⟨child.whole, held, mayPull, ended⟩

end

variable {tree part : Tree σ} {path : List Nat} {cut : Tree (Logged (Tree σ))}

theorem whole_merge (m : MergeStage) (inlets : List (Inlet (Tree (Logged (Tree σ))))) :
    (merge m inlets).whole =
      merge m (inlets.map fun inlet => inlet.withChild inlet.child.whole) := by
  have all : inletsWhole inlets = inlets.map fun inlet => inlet.withChild inlet.child.whole := by
    induction inlets with
    | nil => rw [inletsWhole]; rfl
    | cons inlet rest ih => rw [inletsWhole, inletWhole.eq_def, ih]; rfl
  rw [whole, all]

theorem mem_inletsSources_of {τ : Type} {inlets : List (Inlet (Tree τ))} {inlet : Inlet (Tree τ)}
    (index : Nat) {place : Nat} {s : τ} (at_ : inlets[place]? = some inlet)
    (member : (path, s) ∈ inlet.child.sources) :
    ((index + place) :: path, s) ∈ inletsSources index inlets := by
  induction inlets generalizing index place with
  | nil => cases at_
  | cons first rest ih =>
    rw [inletsSources, List.mem_append]
    cases place with
    | zero =>
      cases at_
      exact .inl (List.mem_map.2 ⟨_, by rwa [inletSources.eq_def], rfl⟩)
    | succ place =>
      have later := ih (index + 1) at_
      rw [Nat.add_right_comm] at later
      exact .inr later

/-- A tree can be cut at any part of it. -/
theorem Below.exists_cut (below : tree.Below path part) :
    ∃ cut : Tree (Logged (Tree σ)),
      cut.whole = tree ∧ (path, Logged.start part) ∈ cut.sources := by
  induction below with
  | here tree => exact ⟨source (Logged.start tree), rfl, List.mem_singleton_self _⟩
  | @window w _ _ _ _ ih =>
    obtain ⟨cut, rfl, member⟩ := ih
    exact ⟨.window w cut, by rw [whole], List.mem_map.2 ⟨_, member, rfl⟩⟩
  | @merge m inlets inlet index _ _ at_ _ ih =>
    obtain ⟨cut, same, member⟩ := ih
    obtain ⟨inside, rfl⟩ := List.getElem?_eq_some_iff.1 at_
    -- The other children are parts as well.
    let others := inlets.map fun other => other.withChild (source (Logged.start other.child))
    refine ⟨.merge m (others.set index (inlets[index].withChild cut)), ?_, ?_⟩
    · have rest : (others.map fun inlet => inlet.withChild inlet.child.whole) = inlets := by
        rw [List.map_map]
        exact List.map_id _
      have own : (inlets[index].withChild cut).withChild cut.whole = inlets[index] := by
        rw [same]
        rfl
      rw [whole_merge, List.map_set, rest]
      exact congrArg _ ((congrArg _ own).trans (List.set_getElem_self inside))
    · have at_ : (others.set index (inlets[index].withChild cut))[index]? = some _ :=
        List.getElem?_set_self (by rwa [List.length_map])
      have found := mem_inletsSources_of 0 at_ member
      rw [Nat.zero_add] at found
      rw [sources]
      exact found

theorem Running.of_whole (running : cut.whole.Running) : cut.Running := by
  induction cut using induct with
  | source part => exact .source part
  | window w child ih =>
    rw [whole] at running
    cases running with
    | window running below => exact .window running (ih below)
  | merge m inlets ih =>
    rw [whole_merge] at running
    cases running with
    | merge running below =>
      refine .merge running fun inlet member => ih inlet member ?_
      exact below _ (List.mem_map_of_mem member)

/-- A cut above a part below the top leaves a stage there. -/
theorem isStage_of_mem {τ : Type} {tree : Tree τ} {s : τ} (member : (path, s) ∈ tree.sources)
    (deep : path ≠ []) : tree.isStage = true := by
  cases tree with
  | source t =>
    cases List.mem_singleton.1 member
    exact absurd rfl deep
  | window | merge => rfl

theorem isClosed_whole (cut : Tree (Logged (Tree σ))) (stage : cut.isStage = true) :
    cut.whole.isClosed = cut.isClosed := by
  cases cut with
  | source part => cases stage
  | window | merge => rfl

theorem isClosed_act {α : Type} (f : σ → α × σ) (tree : Tree σ) (path : List Nat) :
    (tree.act f path).2.isClosed = tree.isClosed := by
  cases tree with
  | source s => cases path <;> rfl
  | window w child => rcases path with _ | ⟨_ | _, _⟩ <;> rfl
  | merge m inlets => cases path <;> rfl

variable [Operator σ]

/-- To keep calls in mind makes no difference. -/
theorem close_whole (cut : Tree (Logged (Tree σ))) :
    cut.whole.close = cut.close.map id whole := by
  induction cut using induct with
  | source part => rfl
  | window w child ih =>
    rw [whole, close, close, ih]
    split <;> rfl
  | merge m inlets ih =>
    have outcomes : (inlets.map fun inlet => inlet.withChild inlet.child.whole).map
        (fun inlet => inlet.child.close.1) = inlets.map fun inlet => inlet.child.close.1 := by
      rw [List.map_map]
      exact List.map_congr_left fun inlet member => congrArg Prod.fst (ih inlet member)
    rw [whole_merge, close, close, closeInlets_eq, closeInlets_eq, outcomes]
    split
    · rw [Prod.map, whole_merge]
      rfl
    · dsimp only
      rw [Prod.map, whole_merge, List.map_map, List.map_map]
      have same : ∀ inlet ∈ inlets, inlet.child.whole.close.2 = inlet.child.close.2.whole :=
        fun inlet member => congrArg Prod.snd (ih inlet member)
      refine Prod.ext rfl (congrArg (merge m.close) (List.map_congr_left fun inlet member => ?_))
      dsimp only [Inlet.withChild, Function.comp]
      rw [same inlet member]

/-- The tree tells that it is at its end, and turns to nothing below when it is called. -/
structure Shut (tree : Tree σ) : Prop where
  hasNext : tree.hasNext = .ok false
  readiness : tree.readiness = (.ready, tree)
  next : ∃ name, tree.next = (.error (.protocolViolation name .pulledAfterClose), tree)
  close : tree.close = (.ok (), tree)

theorem shut_of_isClosed (closed : tree.isClosed = true) : tree.Shut := by
  cases tree with
  | source s => cases closed
  | window w child =>
    have closed : w.closed = true := closed
    refine ⟨?_, ?_, ⟨w.name, ?_⟩, ?_⟩
    · rw [Tree.hasNext, WindowStage.hasNext, closed]
      rfl
    · rw [Tree.readiness, if_neg (by simp [WindowStage.asksChild, closed])]
    · rw [Tree.next, WindowStage.next, if_pos closed]
    · rw [Tree.close, if_pos closed]
  | merge m inlets =>
    have closed : m.closed = true := closed
    refine ⟨?_, ?_, ⟨m.name, ?_⟩, ?_⟩
    · rw [Tree.hasNext, MergeStage.hasNext, closed]
      rfl
    · rw [Tree.readiness, if_pos closed]
    · rw [Tree.next, MergeStage.next, if_pos closed]
      dsimp only
      rw [inlet_lanes]
    · rw [Tree.close, if_pos closed]

/-- Whatever is asked of it and whatever changes below, a closed tree stays closed. -/
theorem isClosed_after (closed : tree.isClosed = true) (events : List (Happening σ)) :
    (tree.after events).isClosed = true := by
  induction events generalizing tree with
  | nil => exact closed
  | cons event rest ih =>
    have shut := shut_of_isClosed closed
    refine ih ?_
    cases event with
    | changed path change => exact (isClosed_act _ tree path).trans closed
    | asked request =>
      cases request with
      | hasNext => exact closed
      | readiness => rwa [happen, ask, shut.readiness]
      | next =>
        obtain ⟨_, next⟩ := shut.next
        rwa [happen, ask, next]
      | close => rwa [happen, ask, shut.close]

theorem isStage_after (stage : tree.isStage = true) (events : List (Happening σ)) :
    (tree.after events).isStage = true := by
  induction events generalizing tree with
  | nil => exact stage
  | cons event rest ih =>
    obtain ⟨todo, same⟩ := Option.isSome_iff_exists.1 stage
    obtain ⟨left, after, _⟩ := tree.serves_happen same event
    exact ih (Option.isSome_iff_exists.2 ⟨left, after⟩)

theorem isClosed_close (stage : tree.isStage = true) : tree.close.2.isClosed = true := by
  cases tree with
  | source s => cases stage
  | window w child =>
    rw [close]
    split
    next closed => exact closed
    · rfl
  | merge m inlets =>
    rw [close]
    split
    next closed => exact closed
    · rfl

/-- Closing a tree reaches every operator below its top once. However it is cut, each part
is closed a single time, whichever of them fail, and the leftmost source that fails tells
how. From then on the tree is at its end, and no call on it reaches any part. -/
theorem close_reaches_all {tree : Tree σ} (running : tree.Running) (stage : tree.isStage = true)
    {before : List (Happening σ)} (unclosed : .asked .close ∉ before) (later : List (Happening σ)) :
    let t := tree.after before
    let after := t.close.2.after later
    t.close.1 = firstFailure t.closings ∧
    (∀ path part, t.Below path part → path ≠ [] → ∃ cut : Tree (Logged (Tree σ)),
      cut.whole = t ∧ cut.isStage = true ∧ (path, Logged.start part) ∈ cut.sources) ∧
    (∀ cut : Tree (Logged (Tree σ)), cut.whole = t →
      cut.close.1 = t.close.1 ∧ cut.close.2.whole = t.close.2 ∧
      cut.close.2.sources = cut.sources.map fun (path, part) =>
        (path, ⟨part.operator.close.2, part.dealings ++ [.close part.operator.close.1]⟩)) ∧
    after.Shut ∧
    ∀ cut : Tree (Logged (Tree σ)), cut.whole = after → cut.isStage = true → cut.Shut := by
  intro t after
  have running : t.Running := running.after unclosed
  have closed : after.isClosed = true :=
    isClosed_after (isClosed_close (isStage_after stage before)) later
  refine ⟨running.close.1, fun path part below deep => ?_, fun cut whole => ?_,
    shut_of_isClosed closed, fun cut whole stage => ?_⟩
  · obtain ⟨cut, whole, member⟩ := below.exists_cut
    exact ⟨cut, whole, isStage_of_mem member deep, member⟩
  · have same := cut.close_whole
    have parts : cut.Running := .of_whole (whole.symm ▸ running)
    rw [whole] at same
    exact ⟨(congrArg Prod.fst same).symm, (congrArg Prod.snd same).symm, parts.close.2⟩
  · refine shut_of_isClosed ((cut.isClosed_whole stage).symm.trans ?_)
    rw [whole]
    exact closed

open Query

/-- A child that pauses and cannot be closed. -/
def stuck (name : String) : Script :=
  .create name sampleEmpty.schema
    [.answer (.block (sampleBlock [5] [some 7] rfl)), .answer .notReady]
    (some (.unsupported (.other name)))

/-- Both sources fail to close, and the left one tells how. The merge has two stages below
it, and each of these a source. -/
theorem close_reaches_all_stuck :
    ∃ stage total,
      fourfold.windowStage .standard sampleEmpty.schema = .ok stage ∧
      fourfold.mergeStage (rowsAtMost 1) [stage.schema, stage.schema] = .ok total ∧
      ∃ tree, tree = merge total (["left", "right"].map fun name =>
          Inlet.create (window stage (source (stuck name)))) ∧
        tree.Running ∧ tree.isStage = true ∧
        let before : List (Happening Script) := [.asked .hasNext]
        let t := tree.after before
        .asked .close ∉ before ∧ t.close.1 = .error (.unsupported (.other "left")) ∧
        (∃ part, t.Below [1] part ∧ ∃ cut : Tree (Logged (Tree Script)),
          cut.whole = t ∧ ([1], Logged.start part) ∈ cut.sources ∧
          ([1], ⟨part.close.2, [.close part.close.1]⟩) ∈ cut.close.2.sources) ∧
        (t.close.2.after ([.next, .close].map .asked)).Shut := by
  have accepted : fourfold.windowStage .standard sampleEmpty.schema = .ok _ := rfl
  refine ⟨_, _, accepted, rfl, _, rfl, ?_⟩
  refine (fun running => ⟨running, rfl, ?_⟩) (.merge rfl ?_)
  swap
  · rw [List.forall_mem_map]
    exact fun name _ => .window rfl (.source (stuck name))
  intro before t
  have unclosed : .asked .close ∉ before := by simp [before]
  obtain ⟨outcome, cuts, closes, shut, _⟩ :=
    close_reaches_all running rfl unclosed ([.next, .close].map .asked)
  refine ⟨unclosed, outcome.trans rfl, ?_, shut⟩
  have below : t.Below [1] _ := .merge rfl (.here _)
  obtain ⟨cut, whole, _, member⟩ := cuts [1] _ below nofun
  refine ⟨_, below, cut, whole, member, ?_⟩
  obtain ⟨_, _, parts⟩ := closes cut whole
  rw [parts]
  exact List.mem_map.2 ⟨_, member, rfl⟩

end Tree
end WindowFold
