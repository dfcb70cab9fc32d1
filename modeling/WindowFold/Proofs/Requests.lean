import WindowFold.Proofs.Delivery
import WindowFold.Proofs.MergeQueries
import WindowFold.Proofs.WindowAnswers

/-! A stage under any sequence of requests, whatever its children do and however
often a request fails. The windows that have no row yet only get fewer, from the
front, and a block that is handed out has rows of some that are gone. -/
namespace WindowFold

/-- What a caller asks of an operator. -/
inductive Request where
  | hasNext
  | readiness
  | next
  | close
  deriving DecidableEq

/-- The caller asks, or a source below changes: a block arrives, or a receive is
polled or given back. -/
inductive Happening (σ : Type) where
  | asked (request : Request)
  | changed (path : List Nat) (change : σ → σ)

/-- The same with sources that stand for others. -/
def Happening.within {σ τ : Type} (lift : (σ → σ) → τ → τ) : Happening σ → Happening τ
  | asked request => asked request
  | changed path change => changed path (lift change)

/-- Of the windows to do some are handed out as rows, in their order. The others
are left, or are gone without a row. -/
def Serves (todo left : List Window) (blocks : List Block) : Prop :=
  ∃ served, (served ++ left).Sublist todo ∧
    blocks.flatMap (·.times) = served.map (·.outputTime)

section
variable {todo left last : List Window} {blocks more : List Block}

theorem Serves.of_sublist (fewer : left.Sublist todo) : Serves todo left [] := by
  refine ⟨[], ?_, rfl⟩
  rw [List.nil_append]
  exact fewer

theorem Serves.trans (first : Serves todo left blocks) (later : Serves left last more) :
    Serves todo last (blocks ++ more) := by
  obtain ⟨served, part, times⟩ := first
  obtain ⟨others, rest, further⟩ := later
  refine ⟨served ++ others, ?_, ?_⟩
  · rw [List.append_assoc]
    exact ((List.Sublist.refl served).append rest).trans part
  · rw [List.flatMap_append, times, further, List.map_append]

end

theorem Answer.times_given (answer : Answer) :
    (Delivery.given (.ok answer)).flatMap (·.times) = answer.rows.map (·.time) := by
  cases answer with
  | block block =>
    rw [Answer.rows, Block.map_time_rows]
    exact List.append_nil _
  | notReady | endOfStream => rfl

theorem RowBuffer.times_answer {b c : RowBuffer} {more : Bool} {answer : Answer}
    (given : b.answer more = (.ok answer, c)) : answer.rows.map (·.time) = b.times := by
  rw [RowBuffer.answer] at given
  split at given
  next empty =>
    rw [isEmpty, List.isEmpty_iff] at empty
    rw [empty]
    cases more <;> cases given <;> rfl
  next =>
    rcases built : b.build with ⟨e | block, buffer⟩
    · rw [built] at given
      cases given
    · rw [built] at given
      cases given
      obtain ⟨own, _⟩ := of_build built
      rw [Answer.rows, Block.map_time_rows, own]

namespace WindowStage
variable {σ : Type} {hasNext : σ → Except Failure Bool} {pull : σ → Attempt σ Answer}

theorem lasts_todo (todo : List Window) : Lasts hasNext pull fun v => v.todo <:+ todo where
  enter {w v _} entered part := by
    obtain ⟨left, active, _⟩ := of_enterWindow entered
    have same : v.todo = w.todo := by
      rw [WindowStage.todo, active, left]
      rfl
    exact same ▸ part
  resolve w child range part := (w.stays_resolve hasNext pull child range).todo ▸ part
  leave {w} part := (List.suffix_append w.active.toList w.cursor.left).trans part
  append _ := id
  start := id
  answer _ := id

theorem serves_next (hasNext : σ → Except Failure Bool) (pull : σ → Attempt σ Answer)
    (w : WindowStage) (child : σ) :
    Serves w.todo (w.next hasNext pull child).2.1.todo
      (Delivery.given (w.next hasNext pull child).1) := by
  have fewer : (w.next hasNext pull child).2.1.todo <:+ w.todo :=
    (lasts_todo w.todo).next List.suffix_rfl child
  rcases called : w.next hasNext pull child with ⟨e | answer, v, d⟩
  · rw [called] at fewer
    exact .of_sublist fewer.sublist
  · rw [called] at fewer
    obtain ⟨served, todo⟩ := fewer
    obtain ⟨times, _⟩ := of_next called
    rw [← todo, List.map_append, List.append_cancel_right_eq] at times
    exact ⟨served, todo ▸ List.Sublist.refl _, answer.times_given.trans times.symm⟩

end WindowStage

namespace MergeStage
variable {σ : Type} {hasNext : σ → Except Failure Bool} {m n : MergeStage} {window : Window}

def todo (m : MergeStage) : List Window := m.active.toList ++ m.cursor.left

theorem of_enterWindow (entered : m.enterWindow = some (window, n)) :
    m.todo = window :: n.cursor.left ∧ n.active = some window ∧ n.buffer = m.buffer := by
  rw [enterWindow] at entered
  cases active : m.active with
  | some current =>
    rw [active] at entered
    cases entered
    exact ⟨by rw [todo, active]; rfl, active, rfl⟩
  | none =>
    rw [active] at entered
    obtain ⟨⟨first, cursor⟩, met, same⟩ := Option.map_eq_some_iff.1 entered
    cases same
    exact ⟨by rw [todo, active, (Cursor.of_next? met).1]; rfl, rfl, rfl⟩

/-- A window is gone as soon as its aggregations have taken in their rows; its row
is there unless the call fails. -/
theorem closeWindow_cases (m : MergeStage) (lanes : List (Lane σ)) (window : Window) :
    (m.closeWindow lanes window).2.1.cursor = m.cursor ∧
      ((m.closeWindow lanes window).2.1.active = m.active ∧
          (m.closeWindow lanes window).1 ≠ .ok () ∨
        (m.closeWindow lanes window).2.1.active = none ∧
          ((m.closeWindow lanes window).1 = .ok () →
            (m.closeWindow lanes window).2.1.buffer.times =
              m.buffer.times ++ [window.outputTime])) := by
  rw [closeWindow]
  split
  · exact ⟨rfl, .inl ⟨rfl, by simp⟩⟩
  dsimp only
  split
  · exact ⟨rfl, .inr ⟨rfl, by simp⟩⟩
  next appended => exact ⟨rfl, .inr ⟨rfl, fun _ => (RowBuffer.of_append appended).1⟩⟩

/-- Windows are closed from the front, and unless the call fails each adds a row
with its output time. -/
theorem closes_closeWindows (hasNext : σ → Except Failure Bool) (windows : Nat) (m : MergeStage)
    (lanes : List (Lane σ)) :
    ∃ closed, m.todo = closed ++ (m.closeWindows hasNext windows lanes).2.1.todo ∧
      ((m.closeWindows hasNext windows lanes).1 = .ok () →
        (m.closeWindows hasNext windows lanes).2.1.buffer.times =
          m.buffer.times ++ closed.map (·.outputTime)) := by
  induction windows generalizing m lanes with
  | zero => exact ⟨[], rfl, fun _ => by simp [closeWindows]⟩
  | succ windows ih =>
    rw [closeWindows]
    split
    · exact ⟨[], rfl, fun _ => by simp⟩
    split
    · exact ⟨[], rfl, by simp⟩
    · exact ⟨[], rfl, fun _ => by simp⟩
    next filled _ =>
    split
    · exact ⟨[], rfl, fun _ => by simp⟩
    next window n entered =>
    obtain ⟨todo, active, buffer⟩ := of_enterWindow entered
    obtain ⟨cursor, round⟩ := n.closeWindow_cases filled window
    have same : m.todo = n.todo := by
      rw [todo, MergeStage.todo, active]
      rfl
    split
    next x _ failed =>
      rw [failed] at cursor round
      rcases round with ⟨stays, _⟩ | ⟨gone, _⟩
      · refine ⟨[], ?_, by simp⟩
        rw [same, MergeStage.todo, MergeStage.todo, stays, cursor]
        rfl
      · refine ⟨[window], ?_, by simp⟩
        rw [todo, MergeStage.todo, gone, cursor]
        rfl
    next x after done =>
      rw [done] at cursor round
      obtain ⟨gone, made⟩ := round.resolve_left fun stays => stays.2 rfl
      obtain ⟨closed, rest, times⟩ := ih x after
      refine ⟨window :: closed, ?_, fun well => ?_⟩
      · rw [todo, ← cursor, List.cons_append, ← rest, MergeStage.todo, gone]
        rfl
      · rw [times well, made rfl, buffer, List.append_assoc]
        rfl

theorem serves_next (hasNext : σ → Except Failure Bool) (m : MergeStage) (lanes : List (Lane σ)) :
    Serves m.todo (m.next hasNext lanes).2.1.todo (Delivery.given (m.next hasNext lanes).1) := by
  rw [next]
  split
  · exact .of_sublist (List.Sublist.refl _)
  dsimp only
  obtain ⟨closed, todo, times⟩ := closes_closeWindows hasNext
    (windowsLeft { m with buffer := m.buffer.clear }) { m with buffer := m.buffer.clear }
    (lanes.map fun lane => { lane with inlet := { lane.inlet with mayPull := true } })
  have todo : m.todo = closed ++ _ := todo
  rw [todo]
  split
  next failed =>
    rw [failed]
    exact .of_sublist (List.sublist_append_right _ _)
  next x _ done =>
    rw [done] at times ⊢
    rw [answer_eq]
    rcases given : x.buffer.answer x.hasNext with ⟨e | answer, buffer⟩
    · exact .of_sublist (List.sublist_append_right _ _)
    · refine ⟨closed, List.Sublist.refl _, answer.times_given.trans ?_⟩
      rw [RowBuffer.times_answer given, times rfl]
      rfl

end MergeStage

namespace Tree
variable {σ : Type} {todo : List Window}

def todo? : Tree σ → Option (List Window)
  | source _ => none
  | window w _ => some w.todo
  | merge m _ => some m.todo

theorem todo?_act {α : Type} (f : σ → α × σ) (tree : Tree σ) (path : List Nat) :
    (tree.act f path).2.todo? = tree.todo? := by
  cases tree with
  | source s => cases path <;> rfl
  | window w child => rcases path with _ | ⟨_ | _, _⟩ <;> rfl
  | merge m inlets => cases path <;> rfl

variable [Operator σ]

def ask (tree : Tree σ) : Request → Tree σ
  | .hasNext => tree
  | .readiness => tree.readiness.2
  | .next => tree.next.2
  | .close => tree.close.2

def happen (tree : Tree σ) : Happening σ → Tree σ
  | .asked request => tree.ask request
  | .changed path change => (tree.act (fun s => ((), change s)) path).2

def after (tree : Tree σ) (events : List (Happening σ)) : Tree σ := events.foldl happen tree

def handedOut (tree : Tree σ) : Happening σ → List Block
  | .asked .next => Delivery.given tree.next.1
  | _ => []

def handedOutBy : Tree σ → List (Happening σ) → List Block
  | _, [] => []
  | tree, event :: rest => tree.handedOut event ++ handedOutBy (tree.happen event) rest

theorem todo?_readiness (tree : Tree σ) : tree.readiness.2.todo? = tree.todo? := by
  cases tree with
  | source s => rfl
  | window w child =>
    rw [readiness]
    split <;> rfl
  | merge m inlets =>
    rw [readiness]
    split <;> rfl

/-- A stage that is closed gives up the window that it is in. -/
theorem todo?_close (tree : Tree σ) (stage : tree.todo? = some todo) :
    ∃ left, tree.close.2.todo? = some left ∧ left.Sublist todo := by
  cases tree with
  | source s => contradiction
  | window w child =>
    cases stage
    rw [close]
    split
    · exact ⟨_, rfl, List.Sublist.refl _⟩
    · exact ⟨_, rfl, List.sublist_append_right _ _⟩
  | merge m inlets =>
    cases stage
    rw [close]
    split
    · exact ⟨_, rfl, List.Sublist.refl _⟩
    · exact ⟨_, rfl, List.sublist_append_right _ _⟩

theorem serves_happen (tree : Tree σ) (stage : tree.todo? = some todo) (event : Happening σ) :
    ∃ left, (tree.happen event).todo? = some left ∧ Serves todo left (tree.handedOut event) := by
  cases event with
  | changed path change =>
    exact ⟨todo, (todo?_act _ tree path).trans stage, .of_sublist (List.Sublist.refl _)⟩
  | asked request =>
    cases request with
    | hasNext => exact ⟨todo, stage, .of_sublist (List.Sublist.refl _)⟩
    | readiness =>
      exact ⟨todo, tree.todo?_readiness.trans stage, .of_sublist (List.Sublist.refl _)⟩
    | close =>
      obtain ⟨left, closed, fewer⟩ := tree.todo?_close stage
      exact ⟨left, closed, .of_sublist fewer⟩
    | next =>
      cases tree with
      | source s => contradiction
      | window w child =>
        cases stage
        exact ⟨_, rfl, w.serves_next hasNext (fun _ => child.next) child⟩
      | merge m inlets =>
        cases stage
        exact ⟨_, rfl, m.serves_next hasNext (lanes inlets)⟩

theorem serves_events (tree : Tree σ) (stage : tree.todo? = some todo)
    (events : List (Happening σ)) : ∃ left, Serves todo left (tree.handedOutBy events) := by
  induction events generalizing tree todo with
  | nil => exact ⟨todo, .of_sublist (List.Sublist.refl _)⟩
  | cons event rest ih =>
    obtain ⟨left, further, first⟩ := tree.serves_happen stage event
    obtain ⟨last, later⟩ := ih (tree.happen event) further
    exact ⟨last, first.trans later⟩

end Tree

namespace Query
variable {q : Query}

/-- A tree with the new stage of a query at the top, and whether the series of its
windows keeps one that is cut short. -/
inductive Tops {σ : Type} [Operator σ] (q : Query) (context : Context) : Tree σ → Bool → Prop where
  | window {stage : WindowStage} {child : Tree σ}
      (accepted : q.windowStage context child.schema = .ok stage) :
      Tops q context (.window stage child) true
  | merge {stage : MergeStage} {children : List (Tree σ)}
      (accepted : q.mergeStage context (children.map (·.schema)) = .ok stage) :
      Tops q context (.merge stage (children.map Inlet.create)) q.keepsClipped

theorem Tops.exists_series {σ : Type} [Operator σ] {context : Context} {tree : Tree σ}
    {keepsClipped : Bool} (tops : q.Tops context tree keepsClipped) :
    ∃ series, WindowSeries.ofGrouping? q.grouping keepsClipped = .ok series ∧
      tree.todo? = some (series.scanned q.scan) := by
  cases tops with
  | window accepted =>
    obtain ⟨_, series, _, windows, rfl⟩ := windowStage_eq_ok accepted
    exact ⟨series, windows, rfl⟩
  | merge accepted =>
    obtain ⟨_, _, series, _, _, _, windows, rfl⟩ := mergeStage_eq_ok accepted
    exact ⟨series, windows, rfl⟩

/-- Whatever is asked of the stage of a query, whatever the children answer and
whatever fails: the times of all blocks handed out are the output times of some
of the windows, in the order of the scan and each window at most once. -/
theorem handedOutBy_inOrder {σ : Type} [Operator σ] {context : Context} {tree : Tree σ}
    {keepsClipped : Bool} (tops : q.Tops context tree keepsClipped)
    (events : List (Happening σ)) :
    ∃ series, ∃ served : List Window,
      WindowSeries.ofGrouping? q.grouping keepsClipped = .ok series ∧
      served.Sublist (series.scanned q.scan) ∧
      (tree.handedOutBy events).flatMap (·.times) = served.map (·.outputTime) := by
  cases tops with
  | @window _ child accepted =>
    obtain ⟨fresh, series, _, windows, rfl⟩ := windowStage_eq_ok accepted
    obtain ⟨left, served, part, times⟩ :=
      Tree.serves_events (.window (.create context fresh (.start series q.scan)) child) rfl events
    exact ⟨series, served, windows, (List.sublist_append_left _ _).trans part, times⟩
  | @merge _ children accepted =>
    obtain ⟨_, fresh, series, _, _, _, windows, rfl⟩ := mergeStage_eq_ok accepted
    obtain ⟨left, served, part, times⟩ := Tree.serves_events
      (.merge (.create context fresh (.start series q.scan)) (children.map Inlet.create)) rfl events
    exact ⟨series, served, windows, (List.sublist_append_left _ _).trans part, times⟩

/-- A child that fails between its blocks, the second of which is not in order. -/
def unruly : Script :=
  .create "child" sampleEmpty.schema
    [.answer (.block (sampleBlock [3, 7] [some 4, none] rfl)), .failure "broken",
      .answer (.block (sampleBlock [14, 12] [some 1, some 2] rfl)), .answer .notReady,
      .answer (.block (sampleBlock [15, 22] [some 8, some 9] rfl)), .failure "broken again"] none

/-- Two calls fail, two windows get their rows, and closing gives up the third. -/
theorem handedOutBy_inOrder_unruly :
    ∃ stage series, ∃ served : List Window,
      sample.windowStage .standard (sampleBlock [] [] rfl).schema = .ok stage ∧
      WindowSeries.ofGrouping? sample.grouping true = .ok series ∧
      served.Sublist (series.scanned sample.scan) ∧
      ((Tree.window stage (.source unruly)).handedOutBy
        ([.next, .next, .hasNext, .next, .next, .readiness, .next, .close, .next].map .asked)
        ).flatMap (·.times) = served.map (·.outputTime) ∧
      served.map (·.outputTime) = [0, 10] := by
  have accepted : sample.windowStage .standard (Tree.source unruly).schema = .ok _ := rfl
  obtain ⟨series, served, windows, part, times⟩ := handedOutBy_inOrder (.window accepted)
    ([.next, .next, .hasNext, .next, .next, .readiness, .next, .close, .next].map .asked)
  exact ⟨_, series, served, accepted, windows, part, times, times.symm.trans (by decide)⟩

end Query
end WindowFold
