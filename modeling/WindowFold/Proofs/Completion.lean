import WindowFold.Driver
import WindowFold.Proofs.Progress
import WindowFold.Proofs.PullDiscipline

/-! Runs of a driver over operators that never wait and that have ever less left: they
come to an end, after no more pulls than there was something left. -/
namespace WindowFold
variable {σ : Type}

/-- The driver without the count of the pulls. -/
def Driver.plain (d : Driver (Recorded σ)) : Driver σ := { d with root := d.root.operator }

def Run.plain (r : Run (Recorded σ)) : Run σ := { r with driver := r.driver.plain }

theorem Driver.plain_root (d : Driver (Recorded σ)) : d.plain.root = d.root.operator := rfl

variable [Operator σ]

/-- States of an operator in which it is ready, and in which a pull that does not fail
uses up some of what is left. -/
structure Wanes (good : σ → Prop) (left : σ → Nat) : Prop where
  ready : ∀ {s : σ}, good s → Operator.readiness s = (.ready, s)
  spends : ∀ {s : σ}, good s → Operator.hasNext s = .ok true → ∀ answer,
    (Operator.next s).1 = .ok answer → good (Operator.next s).2 ∧ left (Operator.next s).2 < left s

/-- Counting the pulls makes no difference. -/
theorem Wanes.recorded {good : σ → Prop} {left : σ → Nat} (wanes : Wanes good left) :
    Wanes (fun r : Recorded σ => good r.operator) (fun r => left r.operator) where
  ready {r} fine := by
    change (Operator.readiness r.operator).map id _ = _
    rw [wanes.ready fine]
    rfl
  spends fine more answer given := wanes.spends fine more answer given

namespace Driver
variable {good : σ → Prop} {left : σ → Nat} {d : Driver σ}

/-- What a turn comes to: the run is over after at most one more pull, or it goes on
with less left. -/
inductive Comes (good : σ → Prop) (left : σ → Nat) (d : Driver σ) : Turn × Driver σ → Prop where
  | ended {e : Driver σ} (root : e.root = d.root ∨ e.root = (Operator.next d.root).2) :
      Comes good left d (.ended, e)
  | failed {e : Driver σ} (failure : DriverFailure)
      (root : e.root = d.root ∨ e.root = (Operator.next d.root).2) :
      Comes good left d (.failed failure, e)
  | block {e : Driver σ} (block : Block) (root : e.root = (Operator.next d.root).2)
      (fine : good e.root) (less : left e.root < left d.root) : Comes good left d (.block block, e)
  | notReady {e : Driver σ} (root : e.root = (Operator.next d.root).2)
      (fine : good e.root) (less : left e.root < left d.root) : Comes good left d (.notReady, e)

theorem turn_comes (wanes : Wanes good left) (fine : good d.root) :
    Comes good left d (d.turn none) := by
  rw [turn]
  rcases told : Operator.hasNext d.root with e | _ | _
  · exact .failed _ (.inl rfl)
  · exact .ended (.inl rfl)
  dsimp only
  rw [wanes.ready fine]
  have spends := wanes.spends fine told
  dsimp only
  rw [pull]
  rcases pulled : Operator.next d.root with ⟨e | block | _ | _, root⟩
  all_goals rw [pulled] at spends
  · exact .failed _ (.inr (by rw [pulled]))
  · obtain ⟨still, less⟩ := spends _ rfl
    exact .block block (by rw [pulled]) still less
  · obtain ⟨still, less⟩ := spends _ rfl
    exact .notReady (by rw [pulled]) still less
  · exact .ended (.inr (by rw [pulled]))

end Driver

namespace Run
variable {good : σ → Prop} {left : σ → Nat} {r : Run σ}

theorem finish_ne_pending (r : Run σ) (failure : Option DriverFailure) :
    (r.finish failure).1 ≠ .pending := by
  rw [finish]
  rcases r.driver.close with ⟨_ | e, d⟩ <;> cases failure <;> simp

/-- With a turn for everything that is left, and one more, a run comes to its end. -/
theorem pollWithin_ne_pending (wanes : Wanes good left) (turns : Nat) (fine : good r.driver.root)
    (asks : r.awaited = none) (enough : left r.driver.root < turns) :
    (r.pollWithin turns).1 ≠ .pending := by
  induction turns generalizing r with
  | zero => exact absurd enough (Nat.not_lt_zero _)
  | succ turns ih =>
    have comes := Driver.turn_comes wanes fine
    rw [pollWithin, asks]
    generalize r.driver.turn none = turned at comes ⊢
    cases comes with
    | ended | failed => exact finish_ne_pending _ _
    | block block _ still less | notReady _ still less =>
      exact ih still rfl (Nat.lt_of_lt_of_le less (Nat.le_of_lt_succ enough))

/-- Closing pulls nothing. -/
theorem pulled_finish (r : Run (Recorded σ)) (failure : Option DriverFailure) :
    (r.finish failure).2.driver.root.pulled = r.driver.root.pulled := by
  have closed : r.driver.close.2.root.pulled = r.driver.root.pulled := by
    rw [Driver.close]
    split
    · rfl
    · dsimp only
      split <;> rfl
  rw [finish]
  rcases made : r.driver.close with ⟨_ | e, d⟩
  all_goals
    rw [made] at closed
    cases failure <;> exact closed

/-- Each pull of a run uses up some of what is left, but for the last. -/
theorem pulls_pollWithin (wanes : Wanes good left) (turns : Nat) {r : Run (Recorded σ)}
    (fine : good r.driver.root.operator) (asks : r.awaited = none) :
    (r.pollWithin turns).2.driver.root.pulled.length ≤
      r.driver.root.pulled.length + left r.driver.root.operator + 1 := by
  induction turns generalizing r with
  | zero => exact Nat.le_succ_of_le (Nat.le_add_right _ _)
  | succ turns ih =>
    have once := r.driver.root.pulled_next
    have comes := Driver.turn_comes wanes.recorded fine
    rw [pollWithin, asks]
    generalize r.driver.turn none = turned at comes ⊢
    cases comes with
    | ended root | failed _ root =>
      dsimp only
      rw [pulled_finish]
      rcases root with same | pulled
      · rw [same]
        omega
      · rw [pulled, once]
        omega
    | @block e block root still less | @notReady e root still less =>
      refine (ih still rfl).trans ?_
      have counted : e.root.pulled.length = r.driver.root.pulled.length + 1 := by rw [root, once]
      dsimp only at less ⊢
      omega

end Run

namespace Driver
variable (d : Driver (Recorded σ))

theorem pull_plain : d.plain.pull = d.pull.map id plain := by
  have pulled : Operator.next d.root =
      (Operator.next d.root.operator).map id fun s => ⟨s, d.root.pulled ++ [d.root.operator]⟩ := rfl
  rw [pull, pull, plain_root, pulled]
  rcases Operator.next d.root.operator with ⟨e | _ | _ | _, s⟩ <;> rfl

theorem await_plain (ticket : Ticket) : d.plain.await ticket = (d.await ticket).map id plain := by
  have polled : Operator.poll ticket d.root =
      (Operator.poll ticket d.root.operator).map id fun s => ⟨s, d.root.pulled⟩ := rfl
  rw [await, await, plain_root, polled]
  rcases Operator.poll ticket d.root.operator with ⟨_ | _, s⟩
  · rfl
  · exact pull_plain { d with root := Operator.release ticket ⟨s, d.root.pulled⟩ }

theorem turn_plain (awaited : Option Ticket) :
    d.plain.turn awaited = (d.turn awaited).map id plain := by
  cases awaited with
  | some ticket => exact d.await_plain ticket
  | none =>
    have asked : Operator.readiness d.root =
        (Operator.readiness d.root.operator).map id fun s => ⟨s, d.root.pulled⟩ := rfl
    have told : Operator.hasNext d.root = Operator.hasNext d.root.operator := rfl
    rw [turn, turn, plain_root, told, asked]
    rcases Operator.hasNext d.root.operator with e | _ | _
    · rfl
    · rfl
    rcases Operator.readiness d.root.operator with ⟨_ | ticket, s⟩
    · exact pull_plain { d with root := ⟨s, d.root.pulled⟩ }
    · exact await_plain { d with root := ⟨s, d.root.pulled⟩ } ticket

theorem close_plain : d.plain.close = d.close.map id plain := by
  have closing : Operator.close d.root =
      (Operator.close d.root.operator).map id fun s => ⟨s, d.root.pulled⟩ := rfl
  have same : d.plain.closed = d.closed := rfl
  rw [close, close, plain_root, closing, same]
  split
  · rfl
  · rcases Operator.close d.root.operator with ⟨e | _, s⟩ <;> rfl

end Driver

namespace Run

theorem finish_plain (r : Run (Recorded σ)) (failure : Option DriverFailure) :
    r.plain.finish failure = (r.finish failure).map id plain := by
  have driver : r.plain.driver = r.driver.plain := rfl
  rw [finish, finish, driver, Driver.close_plain]
  rcases r.driver.close with ⟨_ | e, d⟩ <;> cases failure <;> rfl

/-- Counting the pulls changes nothing of a run. -/
theorem pollWithin_plain (turns : Nat) (r : Run (Recorded σ)) :
    r.plain.pollWithin turns = (r.pollWithin turns).map id plain := by
  induction turns generalizing r with
  | zero => rfl
  | succ turns ih =>
    have driver : r.plain.driver = r.driver.plain := rfl
    have awaited : r.plain.awaited = r.awaited := rfl
    rw [pollWithin, pollWithin, driver, awaited, Driver.turn_plain]
    rcases r.driver.turn r.awaited with ⟨block | _ | _ | ticket | failure, d⟩
    · exact ih ⟨d, r.blocks ++ [block], none⟩
    · exact ih ⟨d, r.blocks, none⟩
    · exact finish_plain { r with driver := d } none
    · rfl
    · exact finish_plain { r with driver := d } (some failure)

end Run
namespace Tree
open Query

/-- A new tree of stages over lists of blocks. -/
inductive Planned : Tree Source → Prop where
  | replay {name : String} {schema : Schema} {blocks : List Block} {r : Replay}
      (made : Replay.create name schema blocks = .ok r) : Planned (.source (.replay r))
  | window {q : Query} {context : Context} {stage : WindowStage} {child : Tree Source}
      (below : Planned child) (accepted : q.windowStage context child.schema = .ok stage) :
      Planned (.window stage child)
  | merge {q : Query} {context : Context} {stage : MergeStage} {children : List (Tree Source)}
      (below : ∀ child ∈ children, Planned child)
      (accepted : q.mergeStage context (children.map (·.schema)) = .ok stage) :
      Planned (.merge stage (children.map Inlet.create))

variable {tree : Tree Source}

theorem Planned.going (planned : tree.Planned) : tree.Going := by
  induction planned with
  | replay made =>
    rw [Replay.create] at made
    split at made
    · cases made
      exact .replay rfl
    · cases made
  | window _ accepted ih =>
    obtain ⟨_, _, _, _, rfl⟩ := Query.windowStage_eq_ok accepted
    exact .window rfl ⟨rfl, rfl⟩ ih
  | merge _ accepted ih =>
    obtain ⟨_, _, _, _, _, _, _, rfl⟩ := Query.mergeStage_eq_ok accepted
    exact .merge rfl ⟨rfl, rfl⟩ (List.forall_mem_map.2 ih)

theorem wanes : Wanes Going left where
  ready going := going.ready
  spends going more answer given := going.spends more answer given

/-- A tree is not driven in circles. Whatever was asked of a stage before and whatever its
children do, where it finds nothing ready it has pulled a child in that call, and children
that count their pulls count just these. So a run over a tree of stages over lists of
blocks ends without a wait, with no more pulls of the root than there are windows, blocks
and operators. -/
theorem poll_completes :
    (∀ {σ : Type} [Operator σ] {q : Query} {context : Context} {tree : Tree σ}
        {keepsClipped : Bool}, q.Tops context tree keepsClipped → ∀ events : List (Happening σ),
      (tree.after events).next.1 = .ok .notReady → (tree.after events).pulled ≠ []) ∧
    (∀ {σ : Type} [Operator σ] {tree : Tree (Recorded σ)}, tree.Flat → ∀ answer,
      tree.next.1 = .ok answer → tree.next.2.calls = tree.calls + tree.pulled.length) ∧
    ∀ {tree : Tree Source}, tree.Planned → ∀ name : String,
      (Run.start (.create name tree)).poll.1 ≠ .pending ∧
      (Run.start (.create name (Recorded.start tree))).poll.1 =
        (Run.start (.create name tree)).poll.1 ∧
      (Run.start (.create name (Recorded.start tree))).poll.2.driver.root.pulled.length ≤
        tree.windows + tree.blocks + tree.operators := by
  refine ⟨?_, ?_, ?_⟩
  · intro σ _ q context tree keepsClipped tops events waits
    obtain ⟨_, _, sized⟩ := tops.todo
    exact Tree.pulled_of_notReady (tree.sized_after sized events) waits
  · intro σ _ tree flat answer given
    exact (flat.calls_next given).2
  · intro tree planned name
    have enough : tree.left < (Driver.create name tree).patience :=
      Nat.lt_succ_of_le tree.left_le_work
    have same := Run.pollWithin_plain (Driver.create name (Recorded.start tree)).patience
      (Run.start (.create name (Recorded.start tree)))
    refine ⟨Run.pollWithin_ne_pending wanes _ planned.going rfl enough, ?_, ?_⟩
    · exact (congrArg Prod.fst same).symm
    · have pulls := Run.pulls_pollWithin wanes (Driver.create name (Recorded.start tree)).patience
        (r := .start (.create name (Recorded.start tree))) planned.going rfl
      -- The last pull may use up nothing, and there is an operator to count for it.
      have one := tree.operators_pos
      rw [← left_eq]
      change _ ≤ 0 + tree.left + 1 at pulls
      refine pulls.trans ?_
      omega

/-- Blocks over four windows, one of them empty. -/
def listed : Replay :=
  ⟨"listed", sampleEmpty.schema, [sampleBlock [5, 15] [some 1, some 2] (by decide), sampleEmpty,
    sampleBlock [35, 36] [some 4, some 5] rfl], false⟩

/-- A child that has nothing for the fourth window yet; and two stages over lists of
blocks, with a merge that counts their rows. -/
theorem poll_completes_listed :
    (∃ stage, fourfold.windowStage (rowsAtMost 1) (source (Recorded.start pausing)).schema =
        .ok stage ∧
      ∃ tree, tree = (window stage (source (Recorded.start pausing))).after
          ([.next, .next, .next].map .asked) ∧ tree.next.1 = .ok .notReady ∧ tree.pulled ≠ [] ∧
        tree.Flat ∧ tree.next.2.calls = tree.calls + tree.pulled.length) ∧
    ∃ stage total,
      fourfold.windowStage .standard (source (Source.replay listed)).schema = .ok stage ∧
      fourfold.mergeStage (rowsAtMost 1) [stage.schema, stage.schema] = .ok total ∧
      ∃ tree, tree = merge total ((List.replicate 2
          (window stage (source (Source.replay listed)))).map Inlet.create) ∧
        tree.Planned ∧ (Run.start (.create "driver" tree)).poll.1 ≠ .pending ∧
        (Run.start (.create "driver" (Recorded.start tree))).poll.2.driver.root.pulled.length ≤
          12 + 6 + 5 := by
  have accepted : fourfold.windowStage (rowsAtMost 1) (source (Recorded.start pausing)).schema =
    .ok _ := rfl
  have below : fourfold.windowStage .standard (source (Source.replay listed)).schema = .ok _ := rfl
  have leaf : (source (Source.replay listed)).Planned :=
    .replay (show Replay.create "listed" listed.schema listed.blocks = .ok listed from rfl)
  constructor
  · exact ⟨_, accepted, _, rfl, rfl, poll_completes.1 (.window accepted) _ rfl, .window _ _,
      poll_completes.2.1 (.window _ _) .notReady rfl⟩
  refine ⟨_, _, below, rfl, _, rfl, ?_⟩
  have planned : (merge _ ((List.replicate 2 (window _ (source (Source.replay listed)))).map
      Inlet.create)).Planned :=
    .merge (fun child member => by
      rw [List.eq_of_mem_replicate member]
      exact .window leaf below) (show fourfold.mergeStage (rowsAtMost 1) _ = .ok _ from rfl)
  obtain ⟨ends, _, pulls⟩ := poll_completes.2.2 planned "driver"
  exact ⟨planned, ends, pulls⟩

end Tree
end WindowFold
