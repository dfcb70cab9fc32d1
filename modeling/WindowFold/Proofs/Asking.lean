import WindowFold.Proofs.MergeRun
import WindowFold.Proofs.Shapes

/-! A source that has answered that it has nothing yet must be asked before it is
pulled again. A tree in which none is left unasked is pulled without a breach; and
a readiness check can leave one unasked only where a merge stops at a child that
waits while another one has fed sources too. -/
namespace WindowFold

namespace Shape

/-- No stage and no source is closed. -/
inductive Open : Shape → Prop
  | source (fed : Bool) : Open (.source fed false)
  | window {child : Shape} : Open child → Open (.window false child)
  | merge {children : List Shape} : (∀ child ∈ children, Open child) → Open (.merge false children)

/-- No source is fed, so that nothing has to be waited for. -/
inductive Still : Shape → Prop
  | source (closed : Bool) : Still (.source false closed)
  | window {closed : Bool} {child : Shape} : Still child → Still (.window closed child)
  | merge {closed : Bool} {children : List Shape} :
    (∀ child ∈ children, Still child) → Still (.merge closed children)

/-- Of no merge are there two children with sources that are fed. -/
inductive Sparse : Shape → Prop
  | source (fed closed : Bool) : Sparse (.source fed closed)
  | window {closed : Bool} {child : Shape} : Sparse child → Sparse (.window closed child)
  | merge {closed : Bool} {children : List Shape} : (∀ child ∈ children, Sparse child) →
    children.Pairwise (fun x y => Still x ∨ Still y) → Sparse (.merge closed children)

end Shape

namespace Exchange
variable (e : Exchange)

theorem awaiting_readiness : e.readiness.2.awaiting = false := by
  obtain ⟨_, _, frame⟩ := e.readiness_frame
  rw [frame]

theorem awaiting_poll (number : Nat) : (e.poll number).2.awaiting = e.awaiting := by
  obtain ⟨_, _, _, _, frame⟩ := e.poll_frame number
  rw [frame]

theorem awaiting_send (block : Block) : (e.send block).2.awaiting = e.awaiting := by
  obtain ⟨_, frame⟩ := e.send_frame block
  rw [frame]

theorem lawful_next (running : e.closed = false) (asked : e.awaiting = false) :
    Lawful e.next.1 := by
  unfold next
  rw [if_neg (by simp [running]), if_neg (by simp [asked])]
  split
  · exact nofun
  split
  · exact nofun
  split
  · exact nofun
  split
  · exact nofun
  · split <;> exact nofun

end Exchange

namespace Source

/-- The source has answered that it has nothing yet, and was not asked since. -/
def isAwaiting : Source → Bool
  | replay _ => false
  | exchange e => e.awaiting
  | script s => s.awaiting

theorem isAwaiting_readiness (s : Source) : s.readiness.2.isAwaiting = false := by
  cases s with
  | replay | script => rfl
  | exchange e => exact e.awaiting_readiness

theorem isAwaiting_poll (ticket : Ticket) (s : Source) :
    (s.poll ticket).2.isAwaiting = s.isAwaiting := by
  cases s with
  | replay | script => rfl
  | exchange e => exact e.awaiting_poll ticket.receive

theorem isAwaiting_release (ticket : Ticket) (s : Source) :
    (Operator.release ticket s).isAwaiting = s.isAwaiting := by
  cases s <;> rfl

theorem lawful_next (s : Source) (running : s.isClosed = false) (asked : s.isAwaiting = false) :
    Lawful s.next.1 := by
  cases s with
  | replay r =>
    change Lawful (r.next.map id Source.replay).1
    have running : r.closed = false := running
    rw [Replay.next, if_neg (by simp [running])]
    split <;> exact lawful_ok _
  | exchange e => exact e.lawful_next running asked
  | script s =>
    change Lawful (s.next.map id Source.script).1
    have asked : s.awaiting = false := asked
    rw [Script.next, if_neg (by simp [asked])]
    dsimp only
    split
    · exact lawful_ok _
    · exact lawful_ok _
    · rintro operator breach ⟨⟩

end Source

namespace Tree

/-- A source that may be pulled has still to be asked for its readiness. -/
inductive Owed : Tree Source → Prop
  | source {s : Source} : s.isAwaiting = true → Owed (source s)
  | window {w : WindowStage} {child : Tree Source} :
    w.asksChild = true → Owed child → Owed (window w child)
  | merge {m : MergeStage} {inlets : List (Inlet (Tree Source))} {inlet : Inlet (Tree Source)} :
    m.closed = false → inlet ∈ inlets → inlet.ended = false → Owed inlet.child →
      Owed (merge m inlets)

/-- A tree of which everything is open and asked is pulled without a breach. -/
theorem lawful_next (tree : Tree Source) (open_ : tree.shape.Open) (asked : ¬ tree.Owed) :
    Lawful tree.next.1 := by
  induction tree using induct with
  | source s =>
    rw [shape, Source.shape] at open_
    refine s.lawful_next ?_ ?_
    · cases closed : s.isClosed with
      | false => rfl
      | true => rw [closed] at open_; cases open_
    · by_contra awaiting
      exact asked (.source (by simpa using awaiting))
  | window w child ih =>
    rw [shape] at open_
    generalize running : w.closed = closed at open_
    cases open_ with
    | window inside =>
    rw [next]
    refine (WindowStage.next_called lawful_hasNext w child child.next running).lawful
      fun going => ?_
    exact ih inside fun owed =>
      asked (.window (by simp [WindowStage.asksChild, running, going]) owed)
  | merge m inlets ih =>
    rw [shape_merge] at open_
    generalize running : m.closed = closed at open_
    cases open_ with
    | merge inside =>
    rw [next]
    refine (MergeStage.next_called lawful_hasNext m running (lanes_called inlets)).2.2 ?_
    intro inlet member going
    exact ih inlet member (inside _ (List.mem_map_of_mem member)) fun owed =>
      asked (.merge running member going owed)

/-- Acting on a source may not make it wait to be asked. -/
theorem owed_of_act {α : Type} {f : Source → α × Source}
    (keeps : ∀ s, (f s).2.isAwaiting = true → s.isAwaiting = true) (tree : Tree Source)
    (path : List Nat) (owed : (tree.act f path).2.Owed) : tree.Owed := by
  induction tree using induct generalizing path with
  | source s =>
    cases path with
    | nil =>
      simp only [act] at owed
      cases owed with
      | source awaiting => exact .source (keeps s awaiting)
    | cons => simpa [act] using owed
  | window w child ih =>
    rcases path with _ | ⟨_ | _, path⟩
    · simpa [act] using owed
    · simp only [act] at owed
      cases owed with
      | window asks owed => exact .window asks (ih path owed)
    · simpa [act] using owed
  | merge m inlets ih =>
    cases path with
    | nil => simpa [act] using owed
    | cons index path =>
      simp only [act, actInlets_eq] at owed
      cases owed with
      | merge running member going owed =>
        obtain ⟨i, inside, rfl⟩ := List.getElem_of_mem member
        have inside : i < inlets.length := by simpa using inside
        have there : inlets[i] ∈ inlets := List.getElem_mem inside
        rw [List.getElem_modify] at going owed
        split at owed
        next same =>
          rw [if_pos same] at going
          exact .merge running there going (ih _ there path owed)
        next apart =>
          rw [if_neg apart] at going
          exact .merge running there going owed

theorem owed_of_send {tree : Tree Source} (channel : String) (block : Block)
    (owed : (tree.send channel block).2.Owed) : tree.Owed := by
  rw [send] at owed
  split at owed
  · exact owed
  · refine owed_of_act (fun s awaiting => ?_) _ _ owed
    cases s with
    | replay | script => exact awaiting
    | exchange e => exact (e.awaiting_send block).symm.trans awaiting

theorem owed_of_dropSender {tree : Tree Source} (channel : String)
    (owed : (tree.dropSender channel).2.Owed) : tree.Owed := by
  rw [dropSender] at owed
  split at owed
  · exact owed
  · refine owed_of_act (fun s awaiting => ?_) _ _ owed
    cases s <;> exact awaiting

/-- Where no source is fed there is nothing to wait for. -/
theorem ready_of_still (tree : Tree Source) (still : tree.shape.Still) :
    tree.readiness.1 = .ready := by
  induction tree using induct with
  | source s =>
    cases s with
    | replay => rfl
    | exchange | script =>
      rw [shape, Source.shape] at still
      cases still
  | window w child ih =>
    rw [shape] at still
    cases still with
    | window inside =>
    rw [readiness]
    split
    · simp only [ih inside]
      rfl
    · rfl
  | merge m inlets ih =>
    rw [shape_merge] at still
    cases still with
    | merge inside =>
    have ready : ∀ inlet ∈ inlets, inlet.child.readiness.1 = .ready := fun inlet member =>
      ih inlet member (inside _ (List.mem_map_of_mem member))
    rw [readiness]
    split
    · rfl
    · rw [inletsReadiness_eq fun inlet member _ => ready inlet member]

theorem not_owed_of_still (tree : Tree Source) (still : tree.shape.Still) : ¬ tree.Owed := by
  induction tree using induct with
  | source s =>
    cases s with
    | replay => rintro ⟨awaiting⟩; contradiction
    | exchange | script =>
      rw [shape, Source.shape] at still
      cases still
  | window w child ih =>
    rw [shape] at still
    cases still with
    | window inside =>
    rintro (_ | ⟨_, owed⟩)
    exact ih inside owed
  | merge m inlets ih =>
    rw [shape_merge] at still
    cases still with
    | merge inside =>
    intro owed
    cases owed with
    | merge _ member _ owed =>
      exact ih _ member (inside _ (List.mem_map_of_mem member)) owed

/-- Of children of which one has fed sources at most none is left unasked, if none is by a
check of its own: what lies behind one that waits needs no asking. -/
theorem inletsReadiness_paid {inlets : List (Inlet (Tree Source))}
    (apart : inlets.Pairwise fun i j => i.child.shape.Still ∨ j.child.shape.Still)
    (paid : ∀ inlet ∈ inlets, ¬ inlet.child.readiness.2.Owed) (index : Nat) :
    ∀ inlet ∈ (inletsReadiness index inlets).2, inlet.ended = false → ¬ inlet.child.Owed := by
  induction inlets generalizing index with
  | nil => exact fun _ member => absurd member List.not_mem_nil
  | cons first rest ih =>
    obtain ⟨alone, apart⟩ := List.pairwise_cons.1 apart
    obtain ⟨own, others⟩ := List.forall_mem_cons.1 paid
    have later := ih apart others (index + 1)
    intro inlet member going
    rw [inletsReadiness] at member
    split at member
    next ended =>
      rcases List.mem_cons.1 member with rfl | member
      · rw [ended] at going
        contradiction
      · exact later inlet member going
    rw [inletReadiness.eq_def] at member
    dsimp only at member
    split at member
    next ticket waits =>
      rcases List.mem_cons.1 member with rfl | member
      · exact own
      · -- The first child makes one wait, so it is the one with fed sources.
        have still := (alone inlet member).resolve_left fun still => by
          rw [ready_of_still _ still] at waits
          contradiction
        exact not_owed_of_still _ still
    next =>
      rcases List.mem_cons.1 member with rfl | member
      · exact own
      · exact later inlet member going

/-- After a check of a tree with fed sources below one child of each merge at
most, none is left unasked. -/
theorem not_owed_of_sparse (tree : Tree Source) (sparse : tree.shape.Sparse) :
    ¬ tree.readiness.2.Owed := by
  induction tree using induct with
  | source s =>
    rintro ⟨awaiting⟩
    exact absurd (awaiting.symm.trans s.isAwaiting_readiness) nofun
  | window w child ih =>
    rw [shape] at sparse
    cases sparse with
    | window inside =>
    rw [readiness]
    split
    · rintro (_ | ⟨_, owed⟩)
      exact ih inside owed
    next idle =>
      rintro (_ | ⟨asks, _⟩)
      exact idle asks
  | merge m inlets ih =>
    rw [shape_merge] at sparse
    cases sparse with
    | merge inside apart =>
    rw [List.pairwise_map] at apart
    have paid : ∀ inlet ∈ inlets, ¬ inlet.child.readiness.2.Owed := fun inlet member =>
      ih inlet member (inside _ (List.mem_map_of_mem member))
    rw [readiness]
    split
    next closed =>
      intro owed
      cases owed with
      | merge running => exact absurd (closed.symm.trans running) nofun
    · intro owed
      cases owed with
      | merge _ member going owed =>
        exact inletsReadiness_paid apart paid 0 _ member going owed

end Tree
end WindowFold
