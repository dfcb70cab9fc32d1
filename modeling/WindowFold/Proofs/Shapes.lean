import WindowFold.Plan
import WindowFold.Proofs.Calls
import WindowFold.Proofs.Lists
import WindowFold.Proofs.Pulls

/-! What stays the same of a tree while it is asked, fed and pulled: which stages
and sources it has, and which of them are closed. -/
namespace WindowFold

/-- A tree without its data. A source that is fed can make one wait. -/
inductive Shape where
  | source (fed closed : Bool)
  | window (closed : Bool) (child : Shape)
  | merge (closed : Bool) (children : List Shape)

namespace Source

def isFed : Source → Bool
  | replay _ => false
  | exchange _ | script _ => true

def isClosed : Source → Bool
  | replay r => r.closed
  | exchange e => e.closed
  | script _ => false

def shape (s : Source) : Shape := .source s.isFed s.isClosed

end Source

namespace Exchange
variable (e : Exchange)

/-- Asking may begin a receive or hold the pending one once more. -/
theorem readiness_frame : ∃ pending receives, e.readiness.2 =
    { e with awaiting := false, pending := pending, receives := receives } := by
  rw [readiness]
  split
  · exact ⟨_, _, rfl⟩
  · split <;> exact ⟨_, _, rfl⟩

/-- A pull takes a block or learns that none will come; it touches no receive. -/
theorem next_frame : ∃ queue buffered disconnected awaiting pending, e.next.2 =
    { e with queue := queue, buffered := buffered, disconnected := disconnected,
             awaiting := awaiting, pending := pending } := by
  unfold next
  split
  · exact ⟨_, _, _, _, _, rfl⟩
  split
  · exact ⟨_, _, _, _, _, rfl⟩
  split
  · exact ⟨_, _, _, _, _, rfl⟩
  split
  · exact ⟨_, _, _, _, _, rfl⟩
  split
  · exact ⟨_, _, _, _, _, rfl⟩
  split
  · exact ⟨_, _, _, _, _, rfl⟩
  · split <;> exact ⟨_, _, _, _, _, rfl⟩

/-- What a receive has brought waits for the next pull. -/
theorem poll_frame (number : Nat) : ∃ queue buffered disconnected receives, (e.poll number).2 =
    { e with queue := queue, buffered := buffered, disconnected := disconnected,
             receives := receives } := by
  rw [poll]
  split
  · exact ⟨_, _, _, _, rfl⟩
  split
  · exact ⟨_, _, _, _, rfl⟩
  split
  · exact ⟨_, _, _, _, rfl⟩
  · split <;> exact ⟨_, _, _, _, rfl⟩

theorem send_frame (block : Block) : ∃ queue, (e.send block).2 = { e with queue := queue } := by
  rw [send]
  split
  · exact ⟨_, rfl⟩
  split
  · exact ⟨_, rfl⟩
  · split <;> exact ⟨_, rfl⟩

theorem closed_readiness : e.readiness.2.closed = e.closed := by
  obtain ⟨_, _, frame⟩ := e.readiness_frame
  rw [frame]

theorem closed_next : e.next.2.closed = e.closed := by
  obtain ⟨_, _, _, _, _, frame⟩ := e.next_frame
  rw [frame]

theorem closed_poll (number : Nat) : (e.poll number).2.closed = e.closed := by
  obtain ⟨_, _, _, _, frame⟩ := e.poll_frame number
  rw [frame]

theorem closed_send (block : Block) : (e.send block).2.closed = e.closed := by
  obtain ⟨_, frame⟩ := e.send_frame block
  rw [frame]

end Exchange

namespace Source
variable (s : Source)

theorem shape_readiness : s.readiness.2.shape = s.shape := by
  cases s with
  | replay | script => rfl
  | exchange e => exact congrArg (Shape.source true) e.closed_readiness

theorem shape_next : s.next.2.shape = s.shape := by
  cases s with
  | replay r =>
    refine congrArg (Shape.source false) ?_
    change r.next.2.closed = r.closed
    rw [Replay.next]
    split
    · rfl
    · split <;> rfl
  | exchange e => exact congrArg (Shape.source true) e.closed_next
  | script => rfl

theorem shape_poll (ticket : Ticket) : (s.poll ticket).2.shape = s.shape := by
  cases s with
  | replay | script => rfl
  | exchange e => exact congrArg (Shape.source true) (e.closed_poll ticket.receive)

theorem shape_release (ticket : Ticket) : (Operator.release ticket s).shape = s.shape := by
  cases s <;> rfl

/-- Whatever is done to an exchange that does not close it. -/
theorem shape_onExchange {α : Type} {f : Exchange → α × Exchange}
    (keeps : ∀ e, (f e).2.closed = e.closed) : (Tree.onExchange f s).2.shape = s.shape := by
  cases s with
  | replay | script => rfl
  | exchange e => exact congrArg (Shape.source true) (keeps e)

end Source

namespace Tree

section
variable {σ : Type}

/-- Whatever holds of a tree if it holds of its children holds of every tree. -/
theorem induct {P : Tree σ → Prop} (source : ∀ s, P (source s))
    (window : ∀ w child, P child → P (window w child))
    (merge : ∀ m inlets, (∀ inlet ∈ inlets, P inlet.child) → P (merge m inlets)) :
    ∀ tree, P tree
  | .source s => source s
  | .window w child => window w child (induct source window merge child)
  | .merge m inlets => merge m inlets fun inlet member => by
    have smaller : sizeOf inlet.child < sizeOf inlets := by
      have := List.sizeOf_lt_of_mem member
      cases inlet
      simp only [Inlet.mk.sizeOf_spec] at this ⊢
      omega
    exact induct source window merge inlet.child
  termination_by tree => sizeOf tree
  decreasing_by
    · simp_wf
    · simp_wf; omega

variable {α : Type} (f : σ → α × σ)

theorem actInlets_eq (inlets : List (Inlet (Tree σ))) (index : Nat) (path : List Nat) :
    actInlets f inlets index path =
      (inlets[index]?.bind fun inlet => (act f inlet.child path).1,
        inlets.modify index fun inlet => { inlet with child := (act f inlet.child path).2 }) := by
  induction inlets generalizing index with
  | nil => cases index <;> rw [actInlets] <;> rfl
  | cons inlet rest ih =>
    cases index with
    | zero =>
      rw [actInlets, actInlet.eq_def]
      rfl
    | succ index =>
      rw [actInlets, ih]
      rfl

end

mutual

def shape : Tree Source → Shape
  | source s => s.shape
  | window w child => .window w.closed child.shape
  | merge m inlets => .merge m.closed (inletsShape inlets)

def inletsShape : List (Inlet (Tree Source)) → List Shape
  | [] => []
  | inlet :: rest => inletShape inlet :: inletsShape rest

def inletShape : Inlet (Tree Source) → Shape
  | ⟨child, _, _, _⟩ => child.shape

end

@[simp] theorem shape_merge (m : MergeStage) (inlets : List (Inlet (Tree Source))) :
    (merge m inlets).shape = .merge m.closed (inlets.map (·.child.shape)) := by
  have all : inletsShape inlets = inlets.map (·.child.shape) := by
    induction inlets with
    | nil => rw [inletsShape]; rfl
    | cons inlet rest ih => rw [inletsShape, inletShape.eq_def, ih]; rfl
  rw [shape, all]

variable {tree : Tree Source}

/-- Acting on a source without changing what it is. -/
theorem shape_act {α : Type} {f : Source → α × Source} (keeps : ∀ s, (f s).2.shape = s.shape)
    (tree : Tree Source) (path : List Nat) : (tree.act f path).2.shape = tree.shape := by
  induction tree using induct generalizing path with
  | source s =>
    cases path with
    | nil => simpa [act, shape] using keeps s
    | cons => simp [act]
  | window w child ih =>
    match path with
    | [] | (_ + 1) :: _ => simp [act]
    | 0 :: path => simp [act, shape, ih path]
  | merge m inlets ih =>
    cases path with
    | nil => simp [act]
    | cons index path =>
      simp only [act, actInlets_eq, shape_merge, Shape.merge.injEq, true_and]
      apply List.ext_getElem
      · simp
      · intro i inside _
        simp only [List.length_map, List.length_modify] at inside
        simp only [List.getElem_map, List.getElem_modify]
        split
        · exact ih _ (List.getElem_mem _) path
        · rfl

theorem inletsReadiness_frame {σ : Type} [Operator σ] (index : Nat)
    (inlets : List (Inlet (Tree σ))) :
    List.Forall₂ (fun inlet after => after.held = inlet.held ∧ after.ended = inlet.ended ∧
      (after.child = inlet.child ∨ after.child = inlet.child.readiness.2)) inlets
      (inletsReadiness index inlets).2 := by
  induction inlets generalizing index with
  | nil => exact .nil
  | cons inlet rest ih =>
    have still : List.Forall₂ (fun inlet after : Inlet (Tree σ) => after.held = inlet.held ∧
        after.ended = inlet.ended ∧
        (after.child = inlet.child ∨ after.child = inlet.child.readiness.2)) rest rest :=
      List.forall₂_same.2 fun _ _ => ⟨rfl, rfl, .inl rfl⟩
    rw [inletsReadiness]
    split
    · exact .cons ⟨rfl, rfl, .inl rfl⟩ (ih _)
    rw [inletReadiness.eq_def]
    dsimp only
    split
    · exact .cons ⟨rfl, rfl, .inr rfl⟩ still
    · exact .cons ⟨rfl, rfl, .inr rfl⟩ (ih _)

theorem shape_readiness (tree : Tree Source) : tree.readiness.2.shape = tree.shape := by
  induction tree using induct with
  | source s => exact s.shape_readiness
  | window w child ih =>
    rw [readiness]
    split
    · simp only [shape, ih]
    · rfl
  | merge m inlets ih =>
    rw [readiness]
    split
    · rfl
    have frame := inletsReadiness_frame 0 inlets
    simp only [shape_merge, Shape.merge.injEq, true_and]
    refine (map_eq_map_iff.2 (List.forall₂_iff_zip.2 ⟨frame.length_eq, fun {i j} pair => ?_⟩)).symm
    obtain ⟨_, _, left | asked⟩ := (List.forall₂_iff_zip.1 frame).2 pair
    · rw [left]
    · rw [asked, ih i (List.of_mem_zip pair).1]

theorem lawful_hasNext (tree : Tree Source) : Lawful tree.hasNext := by
  cases tree with
  | source s => cases s <;> exact nofun
  | window | merge => exact nofun

theorem lanes_called (inlets : List (Inlet (Tree Source))) :
    List.Forall₂ (Lane.Called next) inlets (lanes inlets) := by
  rw [lanes_eq, List.forall₂_map_right_iff, List.forall₂_same]
  exact fun _ _ => ⟨rfl, id, .inl rfl⟩

theorem shape_next (tree : Tree Source) : tree.next.2.shape = tree.shape := by
  induction tree using induct with
  | source s => exact s.shape_next
  | window w child ih =>
    rw [next]
    cases running : w.closed with
    | true => simp [WindowStage.next, running]
    | false =>
      have called := WindowStage.next_called lawful_hasNext w child child.next running
      simp only [shape, called.closed]
      rcases called.child with same | ⟨_, pulled⟩
      · rw [same]
      · rw [pulled, ih]
  | merge m inlets ih =>
    rw [next]
    cases running : m.closed with
    | true => simp [MergeStage.next, running, inlet_lanes]
    | false =>
      obtain ⟨closed, used, _⟩ :=
        MergeStage.next_called lawful_hasNext m running (lanes_called inlets)
      simp only [shape_merge, closed, Shape.merge.injEq, true_and]
      refine (map_eq_map_iff.2 (List.forall₂_iff_zip.2 ⟨used.length_eq, fun {i j} pair => ?_⟩)).symm
      obtain ⟨_, same | ⟨_, pulled⟩⟩ := (List.forall₂_iff_zip.1 used).2 pair
      · rw [same]
      · rw [pulled, ih i (List.of_mem_zip pair).1]

theorem shape_poll (ticket : Ticket) (tree : Tree Source) :
    (tree.poll ticket).2.shape = tree.shape :=
  tree.shape_act (fun s => s.shape_poll ticket) ticket.path

theorem shape_release (ticket : Ticket) (tree : Tree Source) :
    (tree.release ticket).shape = tree.shape :=
  tree.shape_act (fun s => s.shape_release ticket) ticket.path

theorem shape_send (tree : Tree Source) (name : String) (block : Block) :
    (tree.send name block).2.shape = tree.shape := by
  rw [send]
  split
  · rfl
  · exact tree.shape_act (fun s => s.shape_onExchange fun e => e.closed_send block) _

theorem shape_dropSender (tree : Tree Source) (name : String) :
    (tree.dropSender name).2.shape = tree.shape := by
  rw [dropSender]
  split
  · rfl
  · exact tree.shape_act (fun s => s.shape_onExchange fun _ => rfl) _

end Tree
end WindowFold
