import WindowFold.Proofs.Answers
import WindowFold.Proofs.MergeDeeds
import WindowFold.Proofs.PullContract

/-! What the answers of a stage mean, in any state. The end comes when no window is
left, a block has a row for each window that was closed, and where nothing is ready no
window was closed and a child was pulled. -/
namespace WindowFold
variable {σ : Type}

theorem RowBuffer.of_answer {b c : RowBuffer} {more : Bool} {answer : Answer}
    (given : b.answer more = (.ok answer, c)) :
    (∀ block, answer = .block block → block.rows ≠ []) ∧
      (answer = .notReady → more = true ∧ b.times = []) ∧
      (answer = .endOfStream → more = false ∧ b.times = []) := by
  rw [RowBuffer.answer] at given
  split at given
  next empty =>
    rw [isEmpty, List.isEmpty_iff] at empty
    cases more with
    | false =>
      cases given
      exact ⟨by simp, by simp, fun _ => ⟨rfl, empty⟩⟩
    | true =>
      cases given
      exact ⟨by simp, fun _ => ⟨rfl, empty⟩, by simp⟩
  next some_ =>
    rcases built : b.build with ⟨e | block, buffer⟩
    · rw [built] at given
      cases given
    · rw [built] at given
      cases given
      refine ⟨?_, by simp, by simp⟩
      rintro _ ⟨⟩ none
      obtain ⟨own, _⟩ := of_build built
      rw [← Block.map_time_rows, none, List.map_nil] at own
      rw [isEmpty, ← own] at some_
      exact some_ rfl

/-- What an answer tells of the windows that had no row before it, and of those that
are left. -/
structure Accounts (todo left : List Window) (answer : Answer) : Prop where
  rows : todo.map (·.outputTime) = answer.rows.map (·.time) ++ left.map (·.outputTime)
  fewer : left <:+ todo
  block : ∀ block, answer = .block block → block.rows ≠ []
  notReady : answer = .notReady → left = todo ∧ left ≠ []
  endOfStream : answer = .endOfStream → todo = []

theorem Accounts.of_buffer {closed left : List Window} {b c : RowBuffer} {more : Bool}
    {answer : Answer} (times : b.times = closed.map (·.outputTime)) (further : more = !left.isEmpty)
    (given : b.answer more = (.ok answer, c)) : Accounts (closed ++ left) left answer := by
  obtain ⟨block, notReady, endOfStream⟩ := RowBuffer.of_answer given
  have rows := RowBuffer.times_answer given
  have unclosed : b.times = [] → closed = [] := by
    intro none
    rw [times, List.map_eq_nil_iff] at none
    exact none
  refine ⟨?_, List.suffix_append _ _, block, fun waits => ?_, fun ended => ?_⟩
  · rw [List.map_append, rows, times]
  · obtain ⟨some_, none⟩ := notReady waits
    rw [unclosed none]
    refine ⟨rfl, ?_⟩
    rintro rfl
    cases further.symm.trans some_
  · obtain ⟨last, none⟩ := endOfStream ended
    rw [unclosed none, List.nil_append]
    cases left with
    | nil => rfl
    | cons => cases further.symm.trans last

namespace WindowStage
variable {hasNext : σ → Except Failure Bool} {pull : σ → Attempt σ Answer} {w v : WindowStage}
  {child after : σ}

/-- A call that does not fail closes windows, and answers from the buffer. -/
theorem next_eq_ok (running : w.closed = false) {answer : Answer}
    (given : w.next hasNext pull child = (.ok answer, v, after)) :
    ∃ x buffer, w.anew.closeWindows hasNext pull w.anew.windowsLeft child = (.ok (), x, after) ∧
      x.buffer.answer x.hasNext = (.ok answer, buffer) ∧ v = { x with buffer := buffer } := by
  rw [next_eq running] at given
  rcases closing : w.anew.closeWindows hasNext pull w.anew.windowsLeft child with ⟨e | _, x, d⟩
  · rw [closing] at given
    cases given
  rw [closing] at given
  dsimp only at given
  rw [answer_eq] at given
  rcases answered : x.buffer.answer x.hasNext with ⟨outcome, buffer⟩
  rw [answered] at given
  cases given
  exact ⟨x, buffer, rfl, answered, rfl⟩

theorem accounts_next (running : w.closed = false) {answer : Answer}
    (given : w.next hasNext pull child = (.ok answer, v, after)) :
    Accounts w.todo v.todo answer ∧ v.closed = false := by
  obtain ⟨x, buffer, closing, answered, rfl⟩ := next_eq_ok running given
  obtain ⟨closed, todo, times, _, still⟩ := of_closeWindows closing
  have open_ : x.closed = false := still.trans running
  refine ⟨?_, open_⟩
  rw [show w.todo = closed ++ x.todo from todo]
  exact .of_buffer times (hasNext_eq x open_) answered

theorem todo_of_enterWindow (none : w.enterWindow = none) : w.todo = [] := by
  rw [enterWindow] at none
  split at none
  · cases none
  next inactive =>
  rw [todo, inactive, Cursor.left_of_next? (Option.map_eq_none_iff.1 none)]
  rfl

/-- Where windows are left and none of them is closed, the child was pulled. -/
theorem pulls_of_waiting {windows : Nat} (roomy : w.buffer.isFull = false) (may : w.mayPull = true)
    (some_ : w.todo ≠ [])
    (closing : w.closeWindows hasNext pull (windows + 1) child = (.ok (), v, after))
    (still : v.todo = w.todo) : w.pullsWithin hasNext pull (windows + 1) child ≠ [] := by
  rw [closeWindows, roomy, if_neg Bool.false_ne_true] at closing
  rw [pullsWithin, roomy, if_neg Bool.false_ne_true]
  rcases entered : w.enterWindow with _ | ⟨window, u⟩
  · exact absurd (todo_of_enterWindow entered) some_
  obtain ⟨todo, active, _⟩ := of_enterWindow entered
  have stays := u.stays_resolve hasNext pull child window.range
  obtain ⟨_, waits⟩ := u.resolve_pulling hasNext pull child window.range
  rw [entered] at closing
  dsimp only at closing ⊢
  rcases resolved : u.resolve hasNext pull child window.range with ⟨e | _ | _, x, d⟩
  · rw [resolved] at closing
    cases closing
  · rw [resolved] at waits
    have pulled := waits rfl ((mayPull_enterWindow entered).trans may)
    exact fun none => pulled (List.append_eq_nil_iff.1 none).1
  · -- A window is closed, so fewer are left.
    rw [resolved] at closing stays
    dsimp only at closing stays
    rcases appended : x.buffer.append window.outputTime (outputRow x.aggregators) with e | buffer
    · rw [appended] at closing
      cases closing
    · rw [appended] at closing
      dsimp only at closing
      let next : WindowStage := { x with active := none, buffer := buffer }
      have fewer : (next.closeWindows hasNext pull windows d).2.1.todo <:+ next.todo :=
        (lasts_todo next.todo).closeWindows windows List.suffix_rfl d
      rw [closing] at fewer
      have length := fewer.length_le
      have left : WindowStage.todo { x with active := none, buffer := buffer } = u.cursor.left := by
        rw [WindowStage.todo, ← stays.cursor]
        rfl
      dsimp only at length
      rw [still, todo, left, List.length_cons] at length
      omega

/-- A call that finds nothing ready has pulled the child. -/
theorem pulls_of_notReady {limits : Limits} (running : w.closed = false)
    (sized : w.buffer.Sized limits)
    (given : w.next hasNext pull child = (.ok .notReady, v, after)) :
    w.pulls hasNext pull child ≠ [] := by
  obtain ⟨accounts, _⟩ := accounts_next running given
  obtain ⟨same, some_⟩ := accounts.notReady rfl
  obtain ⟨x, buffer, closing, _, rfl⟩ := next_eq_ok running given
  rw [pulls, if_neg (by simp [running])]
  have cleared : w.anew.buffer.Sized limits := ⟨sized.rows, sized.bytes⟩
  have roomy : w.anew.buffer.isFull = false := cleared.not_full rfl rfl
  have windows : w.anew.windowsLeft = w.todo.length := windowsLeft_eq _
  rw [same] at some_
  obtain ⟨count, positive⟩ := Nat.exists_eq_succ_of_ne_zero (List.length_pos_iff.2 some_).ne'
  rw [windows, positive] at closing ⊢
  exact pulls_of_waiting roomy rfl some_ closing same

/-- A call keeps the size of the buffer. -/
theorem sized_next {limits : Limits} (sized : w.buffer.Sized limits)
    (hasNext : σ → Except Failure Bool) (pull : σ → Attempt σ Answer) (child : σ) :
    (w.next hasNext pull child).2.1.buffer.Sized limits :=
  (lasts_buffer (RowBuffer.Sized.lasts limits)).next sized child

end WindowStage

namespace MergeStage
variable {hasNext : σ → Except Failure Bool} {scan : Scan} {m n : MergeStage}
  {lanes : List (Lane σ)} {after : List (Inlet σ)}

theorem windowsLeft_todo (m : MergeStage) : m.windowsLeft = m.todo.length := by
  rw [windowsLeft, todo, Cursor.remaining_eq, List.length_append]
  cases m.active <;> simp [Nat.add_comm]

theorem hasNext_todo (m : MergeStage) (running : m.closed = false) :
    m.hasNext = !m.todo.isEmpty := by
  rw [MergeStage.hasNext, running, Cursor.hasNext_eq, todo]
  cases m.active <;> simp

theorem next_eq_ok (running : m.closed = false) {answer : Answer}
    (given : m.next hasNext lanes = (.ok answer, n, after)) :
    ∃ x buffer filled,
      m.anew.closeWindows hasNext m.anew.windowsLeft (lanes.map Lane.anew) = (.ok (), x, filled) ∧
      x.buffer.answer x.hasNext = (.ok answer, buffer) ∧ n = { x with buffer := buffer } := by
  rw [next_eq running] at given
  rcases closing : m.anew.closeWindows hasNext m.anew.windowsLeft (lanes.map Lane.anew) with
    ⟨e | _, x, filled⟩
  · rw [closing] at given
    cases given
  rw [closing] at given
  dsimp only at given
  rw [answer_eq] at given
  rcases answered : x.buffer.answer x.hasNext with ⟨outcome, buffer⟩
  rw [answered] at given
  cases given
  exact ⟨x, buffer, filled, rfl, answered, rfl⟩

theorem accounts_next (running : m.closed = false) {answer : Answer}
    (given : m.next hasNext lanes = (.ok answer, n, after)) :
    Accounts m.todo n.todo answer ∧ n.closed = false := by
  obtain ⟨x, buffer, filled, closing, answered, rfl⟩ := next_eq_ok running given
  obtain ⟨closed, todo, times⟩ := closes_closeWindows hasNext m.anew.windowsLeft m.anew
    (lanes.map Lane.anew)
  obtain ⟨_, _, still⟩ := (rounds_closeWindows hasNext m.anew.windowsLeft m.anew
    (lanes.map Lane.anew)).course
  rw [closing] at todo times still
  have open_ : x.closed = false := still.trans running
  refine ⟨?_, open_⟩
  rw [show m.todo = closed ++ x.todo from todo]
  exact .of_buffer (times rfl) (hasNext_todo x open_) answered

theorem todo_of_enterWindow (none : m.enterWindow = none) : m.todo = [] := by
  rw [enterWindow] at none
  split at none
  · cases none
  next inactive =>
  rw [todo, inactive, Cursor.left_of_next? (Option.map_eq_none_iff.1 none)]
  rfl

/-- Inlets that may all be filled wait only for a child that was pulled. -/
theorem pulled_of_prepare (waits : (prepare hasNext scan lanes).1 = .ok false)
    (may : ∀ lane ∈ lanes, lane.inlet.mayPull = true) (place : Nat) :
    ∃ other inlet answer, .pulled other inlet answer ∈ prepareDeeds hasNext scan place lanes := by
  induction lanes generalizing place with
  | nil => cases waits
  | cons lane rest ih =>
    have fills := lane.fills hasNext scan place
    have first := may lane List.mem_cons_self
    rw [prepare_cons] at waits
    rw [prepareDeeds]
    generalize lane.fill hasNext scan = filled, lane.fillDeeds hasNext place = deeds
      at fills waits ⊢
    obtain ⟨outcome, x⟩ := filled
    cases fills with
    | ready | noted =>
      obtain ⟨other, inlet, answer, member⟩ :=
        ih waits (fun lane member => may lane (List.mem_cons_of_mem _ member)) (place + 1)
      exact ⟨other, inlet, answer, List.mem_append_right _ member⟩
    | failed => cases waits
    | spent spent => exact absurd (spent.symm.trans first) Bool.false_ne_true
    | pulled => exact ⟨_, _, _, List.mem_append_left _ (List.mem_singleton_self _)⟩

/-- Where windows are left and none of them is closed, a child was pulled. -/
theorem pulled_of_waiting {windows : Nat} (roomy : m.buffer.isFull = false)
    (may : ∀ lane ∈ lanes, lane.inlet.mayPull = true) (some_ : m.todo ≠ [])
    {filled : List (Lane σ)}
    (closing : m.closeWindows hasNext (windows + 1) lanes = (.ok (), n, filled))
    (still : n.todo = m.todo) :
    ∃ place inlet answer,
      .pulled place inlet answer ∈ m.deedsWithin hasNext (windows + 1) lanes := by
  rw [closeWindows, roomy, if_neg Bool.false_ne_true] at closing
  rw [deedsWithin, roomy, if_neg Bool.false_ne_true]
  rcases prepared : prepare hasNext m.scan lanes with ⟨e | _ | _, x⟩
  · rw [prepared] at closing
    cases closing
  · have waits := congrArg Prod.fst prepared
    obtain ⟨place, inlet, answer, member⟩ := pulled_of_prepare waits may 0
    exact ⟨place, inlet, answer, List.mem_append_left _ member⟩
  rw [prepared] at closing
  dsimp only at closing
  rcases entered : m.enterWindow with _ | ⟨window, o⟩
  · exact absurd (todo_of_enterWindow entered) some_
  -- A window is closed, so fewer are left.
  obtain ⟨todo, _, _⟩ := of_enterWindow entered
  obtain ⟨cursor, round⟩ := o.closeWindow_cases x window
  rw [entered] at closing
  dsimp only at closing
  rcases closed : o.closeWindow x window with ⟨e | _, p, used⟩
  · rw [closed] at closing
    cases closing
  rw [closed] at closing cursor round
  dsimp only at closing cursor round
  obtain ⟨gone, _⟩ := round.resolve_left fun stays => stays.2 rfl
  obtain ⟨others, rest, _⟩ := closes_closeWindows hasNext windows p used
  rw [closing] at rest
  have lengths := congrArg List.length rest
  rw [show p.todo = o.cursor.left by rw [MergeStage.todo, gone, cursor]; rfl, List.length_append,
    still, todo, List.length_cons] at lengths
  omega

theorem pulled_of_notReady {limits : Limits} (running : m.closed = false)
    (sized : m.buffer.Sized limits) (given : m.next hasNext lanes = (.ok .notReady, n, after)) :
    ∃ place inlet answer, .pulled place inlet answer ∈ m.deeds hasNext lanes := by
  obtain ⟨accounts, _⟩ := accounts_next running given
  obtain ⟨same, some_⟩ := accounts.notReady rfl
  obtain ⟨x, buffer, filled, closing, _, rfl⟩ := next_eq_ok running given
  rw [deeds, if_neg (by simp [running])]
  have cleared : m.anew.buffer.Sized limits := ⟨sized.rows, sized.bytes⟩
  have roomy : m.anew.buffer.isFull = false := cleared.not_full rfl rfl
  have windows : m.anew.windowsLeft = m.todo.length := windowsLeft_todo _
  rw [same] at some_
  obtain ⟨count, positive⟩ := Nat.exists_eq_succ_of_ne_zero (List.length_pos_iff.2 some_).ne'
  rw [windows, positive] at closing ⊢
  exact pulled_of_waiting roomy (by simp [Lane.anew]) some_ closing same

section
variable {P : RowBuffer → Prop} (lasts : RowBuffer.Lasts P)
include lasts

theorem lasts_closeWindows (hasNext : σ → Except Failure Bool) (windows : Nat) (holds : P m.buffer)
    (lanes : List (Lane σ)) : P (m.closeWindows hasNext windows lanes).2.1.buffer := by
  induction windows generalizing m lanes with
  | zero => exact holds
  | succ windows ih =>
    rw [closeWindows]
    split
    · exact holds
    split
    · exact holds
    · exact holds
    next filled _ =>
    split
    · exact holds
    next window o entered =>
    obtain ⟨_, _, buffer⟩ := of_enterWindow entered
    have made : P (o.closeWindow filled window).2.1.buffer := by
      rw [← buffer] at holds
      rw [closeWindow]
      split
      · exact holds
      dsimp only
      split
      · exact holds
      next added => exact lasts.append added holds
    split
    next failed =>
      rw [failed] at made
      exact made
    next p used done =>
      rw [done] at made
      exact ih made used

/-- What lasts of a buffer lasts of that of a stage. -/
theorem lasts_next (holds : P m.buffer) (hasNext : σ → Except Failure Bool)
    (lanes : List (Lane σ)) : P (m.next hasNext lanes).2.1.buffer := by
  have closes := lasts_closeWindows lasts hasNext m.anew.windowsLeft (m := m.anew)
    (lasts.clear holds) (lanes.map Lane.anew)
  by_cases closed : m.closed = true
  · rw [next, if_pos closed]
    exact holds
  rw [Bool.not_eq_true] at closed
  rw [next_eq closed]
  generalize m.anew.closeWindows hasNext m.anew.windowsLeft (lanes.map Lane.anew) = closing
    at closes ⊢
  obtain ⟨e | _, n, filled⟩ := closing
  · exact closes
  · dsimp only
    rw [answer_eq]
    exact lasts.answer _ closes

end

theorem sized_next {limits : Limits} (sized : m.buffer.Sized limits)
    (hasNext : σ → Except Failure Bool) (lanes : List (Lane σ)) :
    (m.next hasNext lanes).2.1.buffer.Sized limits :=
  lasts_next (RowBuffer.Sized.lasts limits) sized hasNext lanes

theorem next_nil (running : m.closed = false) (none : m.todo = [])
    (hasNext : σ → Except Failure Bool) (lanes : List (Lane σ)) :
    (m.next hasNext lanes).1 = .ok .endOfStream ∧ m.deeds hasNext lanes = [] ∧
      (m.next hasNext lanes).2.2.map (·.child) = lanes.map (·.inlet.child) := by
  have windows : m.anew.windowsLeft = 0 := (windowsLeft_todo _).trans (congrArg List.length none)
  have last : m.anew.hasNext = false := by
    rw [hasNext_todo m.anew running, show m.anew.todo = [] from none]
    rfl
  rw [next_eq running, deeds, if_neg (by simp [running]), windows, deedsWithin, closeWindows]
  refine ⟨?_, rfl, ?_⟩
  · dsimp only
    rw [answer_eq, last]
    rfl
  · simp [Lane.anew]

end MergeStage

/-- The place of the child that is pulled. -/
def Deed.place? : Deed σ → Option Nat
  | pulled place _ _ => some place
  | computed .. => none

namespace Tree
variable {tree after_ : Tree σ} {todo : List Window} {limits : Limits}

/-- The operators right below the one at the top. -/
def children : Tree σ → List (Tree σ)
  | source _ => []
  | window _ child => [child]
  | merge _ inlets => inlets.map (·.child)

/-- The stage at the top is closed. -/
def isClosed : Tree σ → Bool
  | source _ => false
  | window w _ => w.closed
  | merge m _ => m.closed

/-- The stage at the top has a buffer with the size of these limits. -/
def Sized (limits : Limits) : Tree σ → Prop
  | source _ => False
  | window w _ => w.buffer.Sized limits
  | merge m _ => m.buffer.Sized limits

variable [Operator σ]

/-- The places of the children that a pull of the tree pulls. -/
def pulled : Tree σ → List Nat
  | source _ => []
  | window w child => (w.pulls hasNext next child).map fun _ => 0
  | merge m inlets => (m.deeds hasNext (live inlets)).filterMap Deed.place?

theorem hasNext_stage (stage : tree.todo? = some todo) :
    tree.hasNext = .ok (!tree.isClosed && !todo.isEmpty) := by
  cases tree with
  | source s => cases stage
  | window w child =>
    cases stage
    change Except.ok w.hasNext = Except.ok (!w.closed && !w.todo.isEmpty)
    cases closed : w.closed with
    | true => simp [WindowStage.hasNext, closed]
    | false => rw [w.hasNext_eq closed]; rfl
  | merge m inlets =>
    cases stage
    change Except.ok m.hasNext = Except.ok (!m.closed && !m.todo.isEmpty)
    cases closed : m.closed with
    | true => simp [MergeStage.hasNext, closed]
    | false => rw [m.hasNext_todo closed]; rfl

/-- A stage that is closed answers nothing. -/
theorem running_of_next {answer : Answer} (given : tree.next.1 = .ok answer) :
    tree.isClosed = false := by
  cases tree with
  | source s => rfl
  | window w child =>
    cases closed : w.closed with
    | false => exact closed
    | true =>
      rw [next_window_live, WindowStage.next, if_pos closed] at given
      cases given
  | merge m inlets =>
    cases closed : m.closed with
    | false => exact closed
    | true =>
      rw [next_merge_live, MergeStage.next, if_pos closed] at given
      cases given

theorem accounts_next (running : tree.isClosed = false) (stage : tree.todo? = some todo)
    {answer : Answer} (given : tree.next.1 = .ok answer) :
    ∃ left, tree.next.2.todo? = some left ∧ tree.next.2.isClosed = false ∧
      Accounts todo left answer := by
  cases tree with
  | source s => cases stage
  | window w child =>
    cases stage
    rw [next_window_live] at given ⊢
    rcases called : w.next hasNext next child with ⟨outcome, v, c⟩
    rw [called] at given
    obtain rfl : outcome = .ok answer := given
    obtain ⟨accounts, open_⟩ := WindowStage.accounts_next running called
    exact ⟨v.todo, rfl, open_, accounts⟩
  | merge m inlets =>
    cases stage
    rw [next_merge_live] at given ⊢
    rcases called : m.next hasNext (live inlets) with ⟨outcome, n, c⟩
    rw [called] at given
    obtain rfl : outcome = .ok answer := given
    obtain ⟨accounts, open_⟩ := MergeStage.accounts_next running called
    exact ⟨n.todo, rfl, open_, accounts⟩

/-- Where no window is left the tree ends, and its children are left alone. -/
theorem next_nil (running : tree.isClosed = false) (stage : tree.todo? = some []) :
    tree.next.1 = .ok .endOfStream ∧ tree.pulled = [] ∧ tree.next.2.children = tree.children := by
  cases tree with
  | source s => cases stage
  | window w child =>
    have none : w.todo = [] := Option.some.inj stage
    have windows : w.anew.windowsLeft = 0 :=
      (w.anew.windowsLeft_eq).trans (congrArg List.length none)
    have idle : w.pulls hasNext next child = [] := by
      rw [WindowStage.pulls, if_neg (by simp [show w.closed = false from running]), windows]
      rfl
    have pulling := w.next_pulling running hasNext next child
    rw [idle] at pulling
    refine ⟨?_, by rw [pulled, idle]; rfl, ?_⟩
    · rw [next_window_live]
      exact WindowStage.next_nil running none
    · rw [next_window_live]
      generalize w.next hasNext next child = called at pulling ⊢
      obtain ⟨outcome, v, after⟩ := called
      cases pulling with
      | none => rfl
  | merge m inlets =>
    have none : m.todo = [] := Option.some.inj stage
    obtain ⟨ended, idle, same⟩ :=
      MergeStage.next_nil running none hasNext (live inlets)
    rw [next_merge_live]
    refine ⟨ended, by rw [pulled, idle]; rfl, same.trans ?_⟩
    rw [live, List.map_map]
    rfl

/-- Windows only go. -/
theorem todo_after (tree : Tree σ) (stage : tree.todo? = some todo) (events : List (Happening σ)) :
    ∃ left, (tree.after events).todo? = some left ∧ left.Sublist todo := by
  induction events generalizing tree todo with
  | nil => exact ⟨todo, stage, List.Sublist.refl _⟩
  | cons event rest ih =>
    obtain ⟨left, same, _, part, _⟩ := tree.serves_happen stage event
    obtain ⟨last, later, fewer⟩ := ih (tree.happen event) same
    exact ⟨last, later, fewer.trans ((List.sublist_append_right _ _).trans part)⟩

theorem sized_happen (sized : tree.Sized limits) (event : Happening σ) :
    (tree.happen event).Sized limits := by
  cases tree with
  | source s => exact sized.elim
  | window w child =>
    cases event with
    | changed path change => rcases path with _ | ⟨_ | _, _⟩ <;> exact sized
    | asked request =>
      cases request with
      | hasNext => exact sized
      | readiness =>
        rw [happen, ask, readiness]
        split <;> exact sized
      | next => exact WindowStage.sized_next sized _ _ child
      | close =>
        rw [happen, ask, close]
        split <;> exact sized
  | merge m inlets =>
    cases event with
    | changed path change => cases path <;> exact sized
    | asked request =>
      cases request with
      | hasNext => exact sized
      | readiness =>
        rw [happen, ask, readiness]
        split <;> exact sized
      | next => exact MergeStage.sized_next sized _ (lanes inlets)
      | close =>
        rw [happen, ask, close]
        split <;> exact sized

theorem sized_after (sized : tree.Sized limits) (events : List (Happening σ)) :
    (tree.after events).Sized limits := by
  induction events generalizing tree with
  | nil => exact sized
  | cons event rest ih => exact ih (sized_happen sized event)

/-- Where nothing is ready a child was pulled. -/
theorem pulled_of_notReady (sized : tree.Sized limits) (waits : tree.next.1 = .ok .notReady) :
    tree.pulled ≠ [] := by
  have running := running_of_next waits
  cases tree with
  | source s => exact sized.elim
  | window w child =>
    rw [next_window_live] at waits
    rcases called : w.next hasNext next child with ⟨outcome, v, c⟩
    rw [called] at waits
    obtain rfl : outcome = .ok .notReady := waits
    have pulls := WindowStage.pulls_of_notReady running sized called
    exact fun none => pulls (List.map_eq_nil_iff.1 none)
  | merge m inlets =>
    rw [next_merge_live] at waits
    rcases called : m.next hasNext (live inlets) with ⟨outcome, n, c⟩
    rw [called] at waits
    obtain rfl : outcome = .ok .notReady := waits
    obtain ⟨place, inlet, answer, member⟩ := MergeStage.pulled_of_notReady running sized called
    rw [pulled, ← List.length_pos_iff]
    exact List.length_pos_of_mem (List.mem_filterMap.2 ⟨_, member, rfl⟩)

end Tree

namespace Query
variable {q : Query}

theorem Tops.todo {σ : Type} [Operator σ] {context : Context} {tree : Tree σ} {keepsClipped : Bool}
    (tops : q.Tops context tree keepsClipped) :
    ∃ todo, tree.todo? = some todo ∧ tree.Sized context.limits := by
  cases tops with
  | window accepted =>
    obtain ⟨_, _, _, _, rfl⟩ := windowStage_eq_ok accepted
    exact ⟨_, rfl, rfl, rfl⟩
  | merge accepted =>
    obtain ⟨_, _, _, _, _, _, _, rfl⟩ := mergeStage_eq_ok accepted
    exact ⟨_, rfl, rfl, rfl⟩

/-- What the answers of an open stage mean, whatever was asked of it before and whatever
its children do. Where it tells that nothing comes it ends, pulls no child and leaves all of
them as they are, and goes on telling so; where it tells that more comes it does not end. A
block has rows. Where nothing is ready more comes, and every window that was left still is. -/
theorem next_means {σ : Type} [Operator σ] {context : Context} {tree : Tree σ}
    {keepsClipped : Bool} (tops : q.Tops context tree keepsClipped)
    (events : List (Happening σ)) (open_ : (tree.after events).isClosed = false) :
    ((tree.after events).hasNext = .ok false →
      (tree.after events).next.1 = .ok .endOfStream ∧ (tree.after events).pulled = [] ∧
        (tree.after events).next.2.children = (tree.after events).children ∧
        ∀ later, ((tree.after events).after later).hasNext = .ok false) ∧
    ((tree.after events).hasNext = .ok true → (tree.after events).next.1 ≠ .ok .endOfStream) ∧
    (∀ block, (tree.after events).next.1 = .ok (.block block) → block.rows ≠ []) ∧
    ((tree.after events).next.1 = .ok .notReady →
      (tree.after events).next.2.hasNext = .ok true ∧
        (tree.after events).next.2.todo? = (tree.after events).todo?) := by
  obtain ⟨first, start, _⟩ := tops.todo
  obtain ⟨todo, stage, _⟩ := tree.todo_after start events
  generalize tree.after events = tree at open_ stage ⊢
  have told := Tree.hasNext_stage stage
  rw [open_, Bool.not_false, Bool.true_and] at told
  refine ⟨fun last => ?_, fun more ended => ?_, fun block given => ?_, fun waits => ?_⟩
  · obtain rfl : todo = [] := by simpa using told.symm.trans last
    obtain ⟨ended, idle, same⟩ := Tree.next_nil open_ stage
    refine ⟨ended, idle, same, fun later => ?_⟩
    obtain ⟨left, same, fewer⟩ := tree.todo_after stage later
    rw [Tree.hasNext_stage same, List.sublist_nil.1 fewer]
    simp
  · obtain ⟨_, _, _, accounts⟩ := Tree.accounts_next open_ stage ended
    rw [accounts.endOfStream rfl] at told
    cases told.symm.trans more
  · obtain ⟨_, _, _, accounts⟩ := Tree.accounts_next open_ stage given
    exact accounts.block block rfl
  · obtain ⟨left, same, still, accounts⟩ := Tree.accounts_next open_ stage waits
    obtain ⟨rfl, some_⟩ := accounts.notReady rfl
    rw [Tree.hasNext_stage same, still, same, stage]
    exact ⟨by simpa using some_, rfl⟩

/-- The fourth call finds nothing ready. The one after it closes the last window, and then
nothing comes. -/
theorem next_means_pausing :
    ∃ stage, fourfold.windowStage (rowsAtMost 1) (Tree.source pausing).schema = .ok stage ∧
      (∃ tree, tree = (Tree.window stage (.source pausing)).after
          ([.next, .next, .next].map .asked) ∧ tree.isClosed = false ∧
        tree.next.1 = .ok .notReady ∧ tree.next.2.hasNext = .ok true ∧
        tree.next.2.todo? = tree.todo?) ∧
      ∃ tree, tree = (Tree.window stage (.source pausing)).after
          ([.next, .next, .next, .next, .readiness, .next].map .asked) ∧ tree.isClosed = false ∧
        tree.hasNext = .ok false ∧ tree.next.1 = .ok .endOfStream ∧ tree.pulled = [] ∧
        tree.next.2.children = tree.children ∧
        ∀ later, (tree.after later).hasNext = .ok false := by
  have accepted : fourfold.windowStage (rowsAtMost 1) (Tree.source pausing).schema = .ok _ := rfl
  refine ⟨_, accepted, ⟨_, rfl, rfl, rfl, ?_⟩, _, rfl, rfl, rfl, ?_⟩
  · obtain ⟨_, _, _, waits⟩ := next_means (.window accepted)
      ([.next, .next, .next].map .asked) rfl
    exact waits rfl
  · obtain ⟨ends, _⟩ := next_means (.window accepted)
      ([.next, .next, .next, .next, .readiness, .next].map .asked) rfl
    exact ends rfl

end Query
end WindowFold
