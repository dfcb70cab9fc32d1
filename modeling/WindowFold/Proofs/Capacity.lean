import WindowFold.Proofs.MergeCalls
import WindowFold.Proofs.Storage

/-! How large the blocks of a stage are. A block holds no more than its limits admit, and
where there is room for another row it was cut because no window is left, or because the
next one needs rows of a child that has had its turn in the call. -/
namespace WindowFold

def Answer.Idle (answer : Except Failure Answer) : Prop :=
  answer = .ok .notReady ∨ ∃ block, answer = .ok (.block block) ∧ block.rows = []

variable {σ : Type} {schema : Schema} {limits : Limits} {rows : List Row}

namespace WindowStage
variable {hasNext : σ → Except Failure Bool} {pull : σ → Attempt σ Answer} {w v : WindowStage}
  {child after : σ} {window : Window} {range : TimeRange}

theorem suspended_of_pullOn (active : w.active = some window)
    (waits : w.pullOn hasNext pull child range = (.ok false, v, after)) :
    v.Suspended ∧ v.mayPull = w.mayPull ∧ hasNext after = .ok true := by
  rw [pullOn] at waits
  split at waits
  · cases waits
  next answer d _ =>
  split at waits
  · cases waits
  next x taken =>
  have still : x.active = some window ∧ x.mayPull = w.mayPull := by
    obtain ⟨_, _, rfl, _⟩ := accept_frame taken
    exact ⟨active, rfl⟩
  have same := x.mayPull_advance hasNext d range
  rcases again : x.advance hasNext d range with ⟨e | _ | _, y⟩
  all_goals
    rw [again] at waits same
    cases waits
  exact ⟨suspended_of_input still.1 again, same.trans still.2,
    told_of_input (congrArg Prod.fst again)⟩

/-- Where the child has to be waited for, the window needs its rows, it has had its turn, and
it tells that more comes. -/
theorem suspended_of_resolve (active : w.active = some window)
    (waits : w.resolve hasNext pull child range = (.ok false, v, after)) :
    v.Suspended ∧ v.mayPull = false ∧ hasNext after = .ok true := by
  have stays := (w.stays_advance hasNext child range).active
  rw [resolve_eq] at waits
  rcases advanced : w.advance hasNext child range with ⟨e | _ | _, u⟩
  all_goals rw [advanced] at waits stays
  · cases waits
  · cases waits
  dsimp only at waits
  split at waits
  next spent =>
    cases waits
    exact ⟨suspended_of_input active advanced, by simpa using spent,
      told_of_input (congrArg Prod.fst advanced)⟩
  · have still : { u with mayPull := false }.active = some window := stays.trans active
    exact suspended_of_pullOn still waits

/-- Closing windows ends where there is no room for another row, where no window is left, or
where the next one needs rows of a child that has had its turn. -/
theorem stores_closeWindows {windows : Nat} (stores : w.buffer.Stores schema limits rows)
    (all : w.todo.length = windows)
    (closing : w.closeWindows hasNext pull windows child = (.ok (), v, after)) :
    ∃ made, v.buffer.Stores schema limits made ∧
      (limits.HasRoom made →
        v.todo = [] ∨ v.Suspended ∧ v.mayPull = false ∧ hasNext after = .ok true) := by
  induction windows generalizing w child rows with
  | zero =>
    cases closing
    exact ⟨rows, stores, fun _ => .inl (List.eq_nil_of_length_eq_zero all)⟩
  | succ windows ih =>
    rw [closeWindows] at closing
    split at closing
    next full =>
      cases closing
      refine ⟨rows, stores, fun room => ?_⟩
      rw [stores.isFull_iff.2 room] at full
      cases full
    next room =>
    rw [Bool.not_eq_true] at room
    split at closing
    next none =>
      cases closing
      exact ⟨rows, stores, fun _ => .inl (todo_of_enterWindow none)⟩
    next window u entered =>
    obtain ⟨todo, active, buffer, _⟩ := of_enterWindow entered
    have stays := u.stays_resolve hasNext pull child window.range
    split at closing
    · cases closing
    next waits =>
      cases closing
      rw [waits] at stays
      refine ⟨rows, ?_, fun _ => .inr (suspended_of_resolve active waits)⟩
      rw [stays.buffer, buffer]
      exact stores
    next x d done =>
      rw [done] at stays
      dsimp only at stays closing
      have held : x.buffer.Stores schema limits rows := by
        rw [stays.buffer, buffer]
        exact stores
      have roomy : x.buffer.isFull = false := by
        rw [stays.buffer, buffer]
        exact room
      split at closing
      · cases closing
      next filled added =>
      refine ih (held.append roomy added) ?_ closing
      rw [todo, List.length_cons] at all
      rw [WindowStage.todo, stays.cursor]
      exact Nat.succ.inj all

theorem comesFrom_next (hasNext : σ → Except Failure Bool) (pull : σ → Attempt σ Answer)
    (w : WindowStage) (child : σ) :
    (w.next hasNext pull child).2.1.buffer.ComesFrom w.buffer :=
  (lasts_buffer (RowBuffer.ComesFrom.lasts w.buffer)).next (.refl _) child

theorem Sound.anew {types : List ScalarType} {fresh : List Aggregator}
    (sound : w.Sound types fresh) : w.anew.Sound types fresh := by
  obtain ⟨rows, holds⟩ := sound.holds
  exact ⟨sound.able, sound.schema, sound.entered, sound.kept, ⟨[], holds.clear⟩⟩

theorem gives_next (running : w.closed = false) (laden : w.buffer.Laden schema limits)
    {block : Block} (given : w.next hasNext pull child = (.ok (.block block), v, after)) :
    ∃ x, w.anew.closeWindows hasNext pull w.anew.windowsLeft child = (.ok (), x, after) ∧
      x.buffer.Gives schema limits block
        (v.todo = [] ∨ v.Suspended ∧ w.pulls hasNext pull child ≠ [] ∧
          hasNext after = .ok true) := by
  have pulling := next_pulling running hasNext pull child
  obtain ⟨x, buffer, closing, answered, rfl⟩ := next_eq_ok running given
  have stores : w.anew.buffer.Stores schema limits [] := laden.stores
  obtain ⟨rows, made, cut⟩ := stores_closeWindows stores (windowsLeft_eq _).symm closing
  refine ⟨x, closing, made.gives (fun room => ?_) answered⟩
  rcases cut room with none | ⟨suspended, spent, more⟩
  · exact .inl none
  · refine .inr ⟨⟨suspended.active, suspended.unsettled, suspended.cached, suspended.going⟩,
      ?_, more⟩
    intro none
    rw [given, none] at pulling
    cases pulling with
    | none may => exact absurd (may.symm.trans spent) (by simp [anew])

end WindowStage

namespace MergeStage
variable {hasNext : σ → Except Failure Bool} {scan : Scan} {m n : MergeStage}
  {lane x : Lane σ} {lanes after : List (Lane σ)} {deeds : List (Deed σ)}

/-- The inlet needs rows, and its child has had its turn: it was pulled before and tells that
more comes, or it was pulled just now and gave no rows. -/
def Lacks (hasNext : σ → Except Failure Bool) (deeds : List (Deed σ)) (place : Nat)
    (lane : Lane σ) : Prop :=
  ¬ lane.inlet.Ready ∧
    (lane.inlet.mayPull = false ∧ hasNext lane.inlet.child = .ok true ∨
      ∃ inlet answer, .pulled place inlet answer ∈ deeds ∧ Answer.Idle answer)

theorem Lacks.mono {place : Nat} {more : List (Deed σ)} (lacks : Lacks hasNext deeds place lane)
    (part : deeds ⊆ more) : Lacks hasNext more place lane := by
  obtain ⟨empty, spent | ⟨inlet, answer, member, idle⟩⟩ := lacks
  · exact ⟨empty, .inl spent⟩
  · exact ⟨empty, .inr ⟨inlet, answer, part member, idle⟩⟩

theorem idle_of_stops? {answer : Except Failure Answer}
    (stops : Answer.stops? scan answer = some (.ok false)) :
    Answer.Idle answer ∧ Answer.taken? scan answer = none ∧ answer ≠ .ok .endOfStream := by
  rcases answer with e | block | _ | _
  · cases stops
  · by_cases empty : block.isEmpty = true
    · refine ⟨.inr ⟨block, rfl, (block.isEmpty_iff).1 empty⟩, ?_, by simp⟩
      rw [Answer.taken?, if_pos empty]
    · rw [Answer.stops?, if_neg empty] at stops
      rcases ordered : block.checkScanOrder scan with e | _
      all_goals
        rw [ordered] at stops
        cases stops
  · exact ⟨.inl rfl, rfl, by simp⟩
  · cases stops

theorem lacks_of_fill (place : Nat) (waits : lane.fill hasNext scan = (some (.ok false), x)) :
    Lacks hasNext (lane.fillDeeds hasNext place) place x := by
  have fills := lane.fills hasNext scan place
  rw [Lane.fill] at waits
  split at waits
  · cases waits
  next empty =>
  rw [Bool.not_eq_true, Bool.or_eq_false_iff] at empty
  have needs : ¬ lane.inlet.Ready := by
    rw [Inlet.Ready, empty.1, empty.2]
    simp
  split at waits
  · cases waits
  · cases waits
  next more =>
  split at waits
  next spent =>
    cases waits
    exact ⟨needs, .inl ⟨by simpa using spent, more⟩⟩
  next may =>
    obtain ⟨stops, rfl⟩ := Prod.mk.inj waits
    obtain ⟨idle, none, last⟩ := idle_of_stops? stops
    refine ⟨?_, .inr ⟨lane.inlet, _, ?_, idle⟩⟩
    · rw [Inlet.Ready, Inlet.given, none]
      rintro (held | ended)
      · cases held
      · dsimp only at ended
        split at ended
        next same => exact last same
        · cases ended
    · rw [Lane.fillDeeds, if_neg (by simp [empty.1, empty.2]), more]
      simp only [Bool.not_eq_true, Bool.not_eq_false'] at may
      simp [may]

theorem lacks_of_prepare (place : Nat)
    (waits : prepare hasNext scan lanes = (.ok false, after)) :
    ∃ i lane, after[i]? = some lane ∧
      Lacks hasNext (prepareDeeds hasNext scan place lanes) (place + i) lane := by
  induction lanes generalizing place after with
  | nil => cases waits
  | cons lane rest ih =>
    rw [prepare_cons] at waits
    rw [prepareDeeds]
    rcases filled : lane.fill hasNext scan with ⟨_ | outcome, x⟩
    · rw [filled] at waits
      obtain ⟨outcome, rfl⟩ := Prod.mk.inj waits
      have later : prepare hasNext scan rest = (.ok false, (prepare hasNext scan rest).2) :=
        Prod.ext outcome rfl
      obtain ⟨i, other, found, lacks⟩ := ih (place + 1) later
      refine ⟨i + 1, other, found, ?_⟩
      rw [← Nat.add_assoc, Nat.add_right_comm]
      exact lacks.mono (List.subset_append_right _ _)
    · rw [filled] at waits
      cases waits
      exact ⟨0, x, rfl, (lacks_of_fill place filled).mono (List.subset_append_left _ _)⟩

theorem stores_closeWindow {window : Window} (stores : m.buffer.Stores schema limits rows)
    (room : m.buffer.isFull = false)
    (closed : m.closeWindow lanes window = (.ok (), n, after)) :
    (∃ r, n.buffer.Stores schema limits (rows ++ [r])) ∧ n.todo = m.cursor.left := by
  rw [closeWindow] at closed
  split at closed
  · cases closed
  dsimp only at closed
  split at closed
  · cases closed
  next added =>
    cases closed
    exact ⟨⟨_, stores.append room added⟩, rfl⟩

/-- Closing windows ends where there is no room for another row, where no window is left, or
where an inlet lacks rows for the next one. -/
theorem stores_closeWindows {windows : Nat} (stores : m.buffer.Stores schema limits rows)
    (all : m.todo.length = windows)
    (closing : m.closeWindows hasNext windows lanes = (.ok (), n, after)) :
    ∃ made, n.buffer.Stores schema limits made ∧
      (limits.HasRoom made → n.todo = [] ∨
        n.todo ≠ [] ∧ ∃ place lane, after[place]? = some lane ∧
          Lacks hasNext (m.deedsWithin hasNext windows lanes) place lane) := by
  induction windows generalizing m lanes rows with
  | zero =>
    cases closing
    exact ⟨rows, stores, fun _ => .inl (List.eq_nil_of_length_eq_zero all)⟩
  | succ windows ih =>
    rw [closeWindows] at closing
    rw [deedsWithin]
    split at closing
    next full =>
      cases closing
      refine ⟨rows, stores, fun room => ?_⟩
      rw [stores.isFull_iff.2 room] at full
      cases full
    next room =>
    rw [if_neg room]
    rw [Bool.not_eq_true] at room
    rcases prepared : prepare hasNext m.scan lanes with ⟨e | _ | _, filled⟩
    · rw [prepared] at closing
      cases closing
    · rw [prepared] at closing
      cases closing
      refine ⟨rows, stores, fun _ => .inr ⟨?_, ?_⟩⟩
      · rw [← List.length_pos_iff, all]
        exact Nat.succ_pos windows
      · obtain ⟨place, lane, found, lacks⟩ := lacks_of_prepare 0 prepared
        rw [Nat.zero_add] at lacks
        exact ⟨place, lane, found, lacks.mono (List.subset_append_left _ _)⟩
    rw [prepared] at closing
    dsimp only at closing ⊢
    rcases entered : m.enterWindow with _ | ⟨window, o⟩
    · rw [entered] at closing
      cases closing
      exact ⟨rows, stores, fun _ => .inl (todo_of_enterWindow entered)⟩
    rw [entered] at closing
    obtain ⟨todo, _, buffer⟩ := of_enterWindow entered
    dsimp only at closing ⊢
    rcases closed : o.closeWindow filled window with ⟨e | _, p, used⟩
    · rw [closed] at closing
      cases closing
    rw [closed] at closing
    rw [← buffer] at stores room
    obtain ⟨⟨r, held⟩, gone⟩ := stores_closeWindow stores room closed
    have left : p.todo.length = windows := by
      rw [todo, List.length_cons] at all
      rw [gone]
      exact Nat.succ.inj all
    obtain ⟨made, last, cut⟩ := ih held left closing
    refine ⟨made, last, fun room => ?_⟩
    rcases cut room with none | ⟨some_, place, lane, found, lacks⟩
    · exact .inl none
    · refine .inr ⟨some_, place, lane, found, lacks.mono ?_⟩
      intro deed member
      exact List.mem_append_right _ (List.mem_cons_of_mem _ member)

theorem comesFrom_next (hasNext : σ → Except Failure Bool) (m : MergeStage)
    (lanes : List (Lane σ)) : (m.next hasNext lanes).2.1.buffer.ComesFrom m.buffer :=
  lasts_next (RowBuffer.ComesFrom.lasts m.buffer) (.refl _) hasNext lanes

theorem pulled_of_spent (course : Course hasNext scan (lanes.map Lane.anew) deeds after)
    {place : Nat} (found : after[place]? = some lane) (spent : lane.inlet.mayPull = false) :
    ∃ inlet answer, .pulled place inlet answer ∈ deeds := by
  have inside : place < (lanes.map Lane.anew).length :=
    course.length_eq ▸ (List.getElem?_eq_some_iff.1 found).1
  have at_ := List.getElem?_eq_getElem inside
  obtain ⟨x, there, _, fares⟩ := course.fares at_
  obtain rfl : lane = x := Option.some.inj (found.symm.trans there)
  cases fares with
  | left _ _ may =>
    rw [List.getElem_map] at may
    cases spent.symm.trans may
  | once _ only => exact ⟨_, _, List.mem_of_mem_filter (only ▸ List.mem_singleton_self _)⟩

theorem Sound.anew {types : List ScalarType} {fresh : List Aggregator}
    (sound : m.Sound types fresh) : m.anew.Sound types fresh := by
  obtain ⟨rows, holds⟩ := sound.holds
  exact ⟨sound.able, sound.schema, sound.entered, ⟨[], holds.clear⟩⟩

theorem gives_next (running : m.closed = false) (laden : m.buffer.Laden schema limits)
    {block : Block} {inlets : List (Inlet σ)}
    (given : m.next hasNext lanes = (.ok (.block block), n, inlets)) :
    ∃ x filled, m.anew.closeWindows hasNext m.anew.windowsLeft (lanes.map Lane.anew) =
        (.ok (), x, filled) ∧
      x.buffer.Gives schema limits block
        (n.todo = [] ∨ n.todo ≠ [] ∧ ∃ place inlet before answer, inlets[place]? = some inlet ∧
          ¬ inlet.Ready ∧ .pulled place before answer ∈ m.deeds hasNext lanes ∧
          (hasNext inlet.child = .ok true ∨ Answer.Idle answer)) := by
  obtain ⟨x, buffer, filled, closing, answered, rfl⟩ := next_eq_ok running given
  have left : inlets = filled.map (·.inlet) := by
    rw [next_eq running, closing] at given
    exact (Prod.mk.inj (Prod.mk.inj given).2).2.symm
  have stores : m.anew.buffer.Stores schema limits [] := laden.stores
  obtain ⟨rows, made, cut⟩ := stores_closeWindows stores (windowsLeft_todo _).symm closing
  obtain ⟨course, _⟩ :=
    (rounds_closeWindows hasNext m.anew.windowsLeft m.anew (lanes.map Lane.anew)).course
  have same : m.deeds hasNext lanes =
      m.anew.deedsWithin hasNext m.anew.windowsLeft (lanes.map Lane.anew) := by
    rw [deeds, if_neg (by simp [running])]
  rw [closing, ← same] at course
  rw [← same] at cut
  refine ⟨x, filled, closing, made.gives (fun room => ?_) answered⟩
  rcases cut room with none | ⟨some_, place, lane, found, needs, reason⟩
  · exact .inl none
  have there : inlets[place]? = some lane.inlet := by
    rw [left, List.getElem?_map, found]
    rfl
  refine .inr ⟨some_, ?_⟩
  rcases reason with ⟨spent, more⟩ | ⟨before, answer, member, idle⟩
  · obtain ⟨before, answer, member⟩ := pulled_of_spent course found spent
    exact ⟨place, lane.inlet, before, answer, there, needs, member, .inl more⟩
  · exact ⟨place, lane.inlet, before, answer, there, needs, member, .inr idle⟩

end MergeStage

namespace Tree
variable {tree : Tree σ} {b : RowBuffer}

def buffer? : Tree σ → Option RowBuffer
  | source _ => none
  | window w _ => some w.buffer
  | merge m _ => some m.buffer

/-- The next window needs rows of the child in a place. -/
def Needs : Tree σ → Nat → Prop
  | source _, _ => False
  | window w _, place => place = 0 ∧ w.Suspended
  | merge m inlets, place =>
    m.todo ≠ [] ∧ ∃ inlet, inlets[place]? = some inlet ∧ ¬ inlet.Ready

theorem buffer?_act {α : Type} (f : σ → α × σ) (tree : Tree σ) (path : List Nat) :
    (tree.act f path).2.buffer? = tree.buffer? := by
  cases tree with
  | source s => cases path <;> rfl
  | window w child => rcases path with _ | ⟨_ | _, _⟩ <;> rfl
  | merge m inlets => cases path <;> rfl

variable [Operator σ]

/-- The children that a pull of the tree pulls, by their places, with what they answer. -/
def pullings : Tree σ → List (Nat × Except Failure Answer)
  | source _ => []
  | window w child => (w.pulls hasNext next child).map fun p => (0, p.2.next.1)
  | merge m inlets => (m.deeds hasNext (live inlets)).filterMap fun
    | .pulled place _ answer => some (place, answer)
    | .computed .. => none

/-- The pulls that a call tells of are those that its children go through: the child in a
place is left as it is, or it is pulled once, and its answer is told. -/
def Heeds (tree : Tree σ) : Prop :=
  ∀ place child, tree.children[place]? = some child →
    (tree.pullings.filter (·.1 = place) = [] ∧ tree.next.2.children[place]? = some child) ∨
    (tree.pullings.filter (·.1 = place) = [(place, child.next.1)] ∧
      tree.next.2.children[place]? = some child.next.2)

theorem heeds_window (w : WindowStage) (child : Tree σ) : Heeds (window w child) := by
  intro place other found
  obtain ⟨rfl, rfl⟩ : place = 0 ∧ child = other := by
    cases place with
    | zero => exact ⟨rfl, Option.some.inj found⟩
    | succ => cases found
  rw [next_window_live, pullings]
  by_cases closed : w.closed = true
  · rw [WindowStage.next, WindowStage.pulls, if_pos closed, if_pos closed]
    exact .inl ⟨rfl, rfl⟩
  rw [Bool.not_eq_true] at closed
  have pulling := w.next_pulling closed hasNext next child
  generalize w.pulls hasNext next child = pulls, w.next hasNext next child = called at pulling ⊢
  obtain ⟨outcome, v, after⟩ := called
  cases pulling with
  | none => exact .inl ⟨rfl, rfl⟩
  | once => exact .inr ⟨rfl, rfl⟩

theorem filter_pullings_merge (m : MergeStage) (inlets : List (Inlet (Tree σ))) (place : Nat) :
    (merge m inlets).pullings.filter (·.1 = place) =
      ((m.deeds hasNext (live inlets)).filter (·.pulls place)).filterMap fun
        | .pulled place _ answer => some (place, answer)
        | .computed .. => none := by
  rw [pullings]
  generalize m.deeds hasNext (live inlets) = deeds
  induction deeds with
  | nil => rfl
  | cons deed rest ih =>
    cases deed with
    | computed => exact ih
    | pulled other inlet answer =>
      by_cases here : other = place
      · simpa [Deed.pulls, here] using ih
      · simpa [Deed.pulls, here] using ih

theorem heeds_merge (m : MergeStage) (inlets : List (Inlet (Tree σ))) : Heeds (merge m inlets) := by
  intro place child found
  rw [filter_pullings_merge, next_merge_live]
  rw [children, List.getElem?_map] at found
  obtain ⟨inlet, there, rfl⟩ := Option.map_eq_some_iff.1 found
  by_cases closed : m.closed = true
  · refine .inl ⟨?_, ?_⟩
    · rw [MergeStage.deeds, if_pos closed]
      rfl
    · rw [MergeStage.next, if_pos closed, inlets_live]
      change (inlets.map (·.child))[place]? = _
      rw [List.getElem?_map, there]
      rfl
  rw [Bool.not_eq_true] at closed
  have at_ : (live inlets)[place]? = some ⟨inlet, next⟩ := by
    rw [live, List.getElem?_map, there]
    rfl
  obtain ⟨x, after, fares⟩ := MergeStage.fares_next hasNext closed at_
  generalize m.next hasNext (live inlets) = called at after ⊢
  obtain ⟨outcome, n, filled⟩ := called
  have last : (merge n filled).children[place]? = some x.inlet.child := by
    rw [children, List.getElem?_map, show filled[place]? = _ from after]
    rfl
  cases fares with
  | left none same =>
    rw [none]
    exact .inl ⟨rfl, last.trans (congrArg some same)⟩
  | once _ only given =>
    rw [only]
    exact .inr ⟨rfl, last.trans (congrArg some given)⟩

theorem heeds (tree : Tree σ) : tree.Heeds := by
  cases tree with
  | source s => exact fun _ _ found => absurd found (by simp [children])
  | window w child => exact heeds_window w child
  | merge m inlets => exact heeds_merge m inlets

theorem comesFrom_happen (stage : tree.buffer? = some b) (event : Happening σ) :
    ∃ c, (tree.happen event).buffer? = some c ∧ c.ComesFrom b := by
  cases event with
  | changed path change => exact ⟨b, (buffer?_act _ tree path).trans stage, .refl b⟩
  | asked request =>
    cases tree with
    | source s => cases stage
    | window w child =>
      cases stage
      cases request with
      | hasNext => exact ⟨_, rfl, .refl _⟩
      | readiness =>
        rw [happen, ask, readiness]
        split <;> exact ⟨_, rfl, .refl _⟩
      | next => exact ⟨_, rfl, w.comesFrom_next hasNext (fun _ => child.next) child⟩
      | close =>
        rw [happen, ask, close]
        split <;> exact ⟨_, rfl, .refl _⟩
    | merge m inlets =>
      cases stage
      cases request with
      | hasNext => exact ⟨_, rfl, .refl _⟩
      | readiness =>
        rw [happen, ask, readiness]
        split <;> exact ⟨_, rfl, .refl _⟩
      | next => exact ⟨_, rfl, m.comesFrom_next hasNext (lanes inlets)⟩
      | close =>
        rw [happen, ask, close]
        split <;> exact ⟨_, rfl, .refl _⟩

/-- Whatever happens to a tree, the buffer is still the one that its stage started with. -/
theorem comesFrom_after (stage : tree.buffer? = some b) (events : List (Happening σ)) :
    ∃ c, (tree.after events).buffer? = some c ∧ c.ComesFrom b := by
  induction events generalizing tree b with
  | nil => exact ⟨b, stage, .refl b⟩
  | cons event rest ih =>
    obtain ⟨c, between, first⟩ := comesFrom_happen stage event
    obtain ⟨d, last, later⟩ := ih between
    exact ⟨d, last, later.trans first⟩

/-- Why a block with room for another row is handed out. -/
def Cut (tree : Tree σ) : Prop :=
  tree.next.2.todo? = some [] ∨
    ∃ place answer, (place, answer) ∈ tree.pullings ∧ tree.next.2.Needs place ∧
      ((∃ child, tree.next.2.children[place]? = some child ∧ child.hasNext = .ok true) ∨
        Answer.Idle answer)

/-- Of a sound stage the buffer holds rows as they are announced while windows are closed. -/
theorem Sound.holds_window {types : List ScalarType} {fresh : List Aggregator} {w x : WindowStage}
    {child after : Tree σ} (sound : (window w child).Sound types fresh)
    (typed : ∀ block, child.next.1 = .ok (.block block) → block.schema.types = types)
    (closing : w.anew.closeWindows hasNext next w.anew.windowsLeft child = (.ok (), x, after)) :
    ∃ others, x.buffer.Holds (outputSchema fresh) others := by
  have live : w.anew.closeWindows hasNext (fun _ => child.next) w.anew.windowsLeft child = _ :=
    WindowStage.closeWindows_congr _ _ _ fun _ => rfl
  have abides := WindowStage.abides_closeWindows hasNext (WindowStage.Sound.anew sound) typed
    w.anew.windowsLeft child
  rw [live, closing] at abides
  exact abides.sound.holds

theorem Sound.holds_merge {types : List ScalarType} {fresh : List Aggregator} {m x : MergeStage}
    {inlets : List (Inlet (Tree σ))} {filled : List (Lane (Tree σ))}
    (sound : (merge m inlets).Sound types fresh)
    (typed : ∀ inlet ∈ inlets, ∀ block, inlet.child.next.1 = .ok (.block block) →
      block.schema.types = types)
    (closing : m.anew.closeWindows hasNext m.anew.windowsLeft ((live inlets).map Lane.anew) =
      (.ok (), x, filled)) : ∃ others, x.buffer.Holds (outputSchema fresh) others := by
  have alike : List.Forall₂ MergeStage.Alike ((live inlets).map Lane.anew)
      ((lanes inlets).map Lane.anew) := by
    rw [lanes_eq, live, List.map_map, List.map_map, List.forall₂_map_left_iff,
      List.forall₂_map_right_iff, List.forall₂_same]
    exact fun _ _ => ⟨rfl, fun _ => rfl⟩
  have each : ∀ lane ∈ (lanes inlets).map Lane.anew, lane.Sound types m.scan fun _ => True := by
    rw [lanes_eq, List.map_map]
    intro lane member
    obtain ⟨inlet, inside, rfl⟩ := List.mem_map.1 member
    exact ⟨sound.2 inlet inside, fun _ => typed inlet inside, fun _ _ _ => trivial⟩
  obtain ⟨_, same, _⟩ := MergeStage.alike_closeWindows hasNext m.anew.windowsLeft m.anew alike
  have abides := MergeStage.abides_closeWindows hasNext (MergeStage.Sound.anew sound.1) rfl each
    m.anew.windowsLeft
  obtain ⟨others, holds⟩ := abides.sound.holds
  rw [same, closing] at holds
  exact ⟨others, holds⟩

theorem gives_next {block : Block} (stage : tree.buffer? = some b)
    (laden : b.Laden schema limits) (given : tree.next.1 = .ok (.block block)) :
    ∃ c : RowBuffer, c.Gives schema limits block tree.Cut ∧
      ∀ types fresh, tree.Sound types fresh →
        (∀ child ∈ tree.children, ∀ block, child.next.1 = .ok (.block block) →
          block.schema.types = types) → ∃ others, c.Holds (outputSchema fresh) others := by
  have running := running_of_next given
  cases tree with
  | source s => cases stage
  | window w child =>
    cases stage
    rw [next_window_live] at given
    rcases called : w.next hasNext next child with ⟨outcome, v, after⟩
    rw [called] at given
    obtain rfl : outcome = .ok (.block block) := given
    obtain ⟨x, closing, gives⟩ := WindowStage.gives_next running laden called
    have left : (window w child).next.2 = .window v after := by
      rw [next_window_live, called]
      rfl
    refine ⟨x.buffer, ⟨gives.built, ?_⟩, fun types fresh sound typed =>
      sound.holds_window (typed child List.mem_cons_self) closing⟩
    obtain ⟨rows, some_, stores, cut⟩ := gives.rows
    refine ⟨rows, some_, stores, fun room => ?_⟩
    rw [Cut, left]
    rcases cut room with none | ⟨suspended, pulls, more⟩
    · exact .inl (congrArg some none)
    · obtain ⟨p, member⟩ := List.exists_mem_of_ne_nil _ pulls
      exact .inr ⟨0, p.2.next.1, List.mem_map_of_mem member, ⟨rfl, suspended⟩,
        .inl ⟨after, rfl, more⟩⟩
  | merge m inlets =>
    cases stage
    rw [next_merge_live] at given
    rcases called : m.next hasNext (live inlets) with ⟨outcome, n, after⟩
    rw [called] at given
    obtain rfl : outcome = .ok (.block block) := given
    obtain ⟨x, filled, closing, gives⟩ := MergeStage.gives_next running laden called
    have left : (merge m inlets).next.2 = .merge n after := by
      rw [next_merge_live, called]
      rfl
    refine ⟨x.buffer, ⟨gives.built, ?_⟩, fun types fresh sound typed =>
      sound.holds_merge (fun inlet inside => typed _ (List.mem_map_of_mem inside)) closing⟩
    obtain ⟨rows, some_, stores, cut⟩ := gives.rows
    refine ⟨rows, some_, stores, fun room => ?_⟩
    rw [Cut, left]
    rcases cut room with none | ⟨some_, place, inlet, before, answer, there, needs, member, reason⟩
    · exact .inl (congrArg some none)
    refine .inr ⟨place, answer, List.mem_filterMap.2 ⟨_, member, rfl⟩,
      ⟨some_, inlet, there, needs⟩, reason.imp_left fun more => ⟨inlet.child, ?_, more⟩⟩
    rw [children, List.getElem?_map, there]
    rfl

end Tree

namespace Query
variable {q : Query}

theorem Tops.laden [Operator σ] {context : Context} {tree : Tree σ} {keepsClipped : Bool}
    (tops : q.Tops context tree keepsClipped) : ∃ b, tree.buffer? = some b ∧
      b.Laden tree.schema context.limits := by
  cases tops with
  | window accepted =>
    obtain ⟨_, _, _, _, rfl⟩ := windowStage_eq_ok accepted
    exact ⟨_, rfl, RowBuffer.laden_create _ _⟩
  | merge accepted =>
    obtain ⟨_, _, _, _, _, _, _, rfl⟩ := mergeStage_eq_ok accepted
    exact ⟨_, rfl, RowBuffer.laden_create _ _⟩

/-- Whatever was asked of a stage before and whatever its children do: a block is made of one
row or more, as many as the limits admit, and where they leave room for another row no window
is left, or the next one needs rows of a child that was pulled in the call, and that tells
that more comes or had no rows to give. The pulls are those that the children go through. As
long as the children hand out columns of the types that they announced, the rows are those of
the block itself. -/
theorem next_fits [Operator σ] {context : Context} {tree : Tree σ} {keepsClipped : Bool}
    (tops : q.Tops context tree keepsClipped) (events : List (Happening σ)) {block : Block}
    (given : (tree.after events).next.1 = .ok (.block block)) :
    (tree.after events).Heeds ∧
    ∃ rows : List Row, block.Renders rows ∧ rows ≠ [] ∧ context.limits.Admits rows ∧
      (context.limits.HasRoom rows → (tree.after events).Cut) ∧
      ((∀ before, before <+: events → (tree.after before).Faithful
          (fun schema block => block.schema.types = schema.types) (fun _ => True)
          (tree.children.map (·.schema))) → block.rows = rows) := by
  obtain ⟨b, start, fresh⟩ := tops.laden
  obtain ⟨c, stage, calls, rfl⟩ := Tree.comesFrom_after start events
  obtain ⟨d, gives, holds⟩ := Tree.gives_next stage (fresh.after calls) given
  obtain ⟨rows, some_, stores, cut⟩ := gives.rows
  refine ⟨Tree.heeds _, rows, stores.build gives.built, some_, stores.admitted, cut,
    fun faithful => ?_⟩
  obtain ⟨first, _, aggregators, made, sound, alike⟩ := tops.sound
  have typed : ∀ before, before <+: events → ∀ child ∈ (tree.after before).children, ∀ block,
      child.next.1 = .ok (.block block) → block.schema.types = first.schema.types := by
    intro before part child member block given
    obtain ⟨announced, inside, keeps⟩ := exists_left (faithful before part).given member
    obtain ⟨own, there, rfl⟩ := List.mem_map.1 inside
    exact (keeps block given).trans (alike own there)
  have held := holds _ _ (sound.after typed) (typed events (List.prefix_refl events))
  have schema : tree.schema = outputSchema aggregators := sound.schema.1
  rw [schema] at stores
  exact stores.rows_eq outputFields_nullable held gives.built

/-- The second block has room for another row, and windows are left: the child was pulled for
the fourth one, and has to be waited for. -/
theorem next_fits_pausing :
    ∃ stage tree block,
      fourfold.windowStage (rowsAtMost 2) (Tree.source pausing).schema = .ok stage ∧
      tree = (Tree.window stage (.source pausing)).after [.asked .next] ∧
      tree.next.1 = .ok (.block block) ∧ (rowsAtMost 2).limits.Admits block.rows ∧
      (rowsAtMost 2).limits.HasRoom block.rows ∧ tree.Cut ∧ tree.Heeds ∧
      tree.next.2.todo? ≠ some [] := by
  have accepted : fourfold.windowStage (rowsAtMost 2) (Tree.source pausing).schema = .ok _ := rfl
  refine ⟨_, _, counted "count(value)" 1 [20], accepted, rfl, by decide +kernel, ?_⟩
  obtain ⟨heeds, rows, _, _, admitted, cut, own⟩ := next_fits (.window accepted) [.asked .next]
    (show _ = Except.ok (Answer.block (counted "count(value)" 1 [20])) by decide +kernel)
  obtain rfl := own (by
    intro before part
    simp only [List.prefix_cons_iff, List.prefix_nil] at part
    rcases part with rfl | ⟨_, rfl, rfl⟩
    all_goals decide +kernel)
  have room : (rowsAtMost 2).limits.HasRoom (counted "count(value)" 1 [20]).rows :=
    ⟨by decide +kernel, by decide +kernel⟩
  exact ⟨admitted, room, cut room, heeds, by decide +kernel⟩

end Query
end WindowFold
