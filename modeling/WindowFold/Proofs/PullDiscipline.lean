import WindowFold.Proofs.Dealings
import WindowFold.Proofs.Recording
import WindowFold.Proofs.Requests
import WindowFold.Proofs.Steady

/-! When a window stage turns to its child, over any history. It pulls only for a
window that needs more rows, when it holds none, and never after the end; a caller
that checks its readiness between two pulls makes it check that of the child. -/
namespace WindowFold

namespace Aggregator

theorem feedPartials_frame (a : Aggregator) (parts : List (List Scalar)) :
    ∃ accumulator, (a.feedPartials parts).2 = { a with accumulator := accumulator } := by
  induction parts generalizing a with
  | nil => exact ⟨a.accumulator, rfl⟩
  | cons columns rest ih =>
    rw [feedPartials]
    dsimp only
    split
    · exact ⟨_, rfl⟩
    · exact ih _

/-- Whatever a block brings, it changes the values alone. -/
theorem feedBlock_frame (a : Aggregator) (block : Block) :
    ∃ accumulator, (a.feedBlock block).2 = { a with accumulator := accumulator } := by
  rw [feedBlock]
  dsimp only
  rw [feedRows]
  split
  · exact ⟨_, rfl⟩
  split
  · exact ⟨_, rfl⟩
  dsimp only
  split
  · split
    · exact ⟨_, rfl⟩
    · split <;> exact ⟨_, rfl⟩
  · exact a.feedPartials_frame _

end Aggregator

namespace WindowStage
variable {σ : Type} {hasNext : σ → Except Failure Bool} {pull : σ → Attempt σ Answer}
  {w v : WindowStage} {child c : σ} {window : Window} {range : TimeRange}

/-- The aggregations read in the order of the scan and, in a window, its rows. -/
structure Aimed (w : WindowStage) : Prop where
  scans : ∀ a ∈ w.aggregators, a.scan = w.scan
  ranges : ∀ window ∈ w.active, ∀ a ∈ w.aggregators, a.range = window.range

theorem feedOpen_frame (block : Block) (aggregators : List Aggregator) :
    List.Forall₂ (fun a b : Aggregator => b.range = a.range ∧ b.scan = a.scan) aggregators
      (feedOpen block aggregators).2 := by
  induction aggregators with
  | nil => exact .nil
  | cons a rest ih =>
    have still : List.Forall₂ (fun a b : Aggregator => b.range = a.range ∧ b.scan = a.scan)
        rest rest := List.forall₂_same.2 fun _ _ => ⟨rfl, rfl⟩
    have first : (a.feedBlock block).2.range = a.range ∧ (a.feedBlock block).2.scan = a.scan := by
      obtain ⟨_, frame⟩ := a.feedBlock_frame block
      rw [frame]
      exact ⟨rfl, rfl⟩
    rw [feedOpen]
    split
    · exact .cons ⟨rfl, rfl⟩ ih
    split
    next failed =>
      rw [failed] at first
      exact .cons first still
    next fed =>
      rw [fed] at first
      exact .cons first ih

/-- Aggregators with the same ranges are aimed alike. -/
theorem Aimed.of_forall₂ (aimed : w.Aimed) {aggregators : List Aggregator}
    (alike : List.Forall₂ (fun a b : Aggregator => b.range = a.range ∧ b.scan = a.scan)
      w.aggregators aggregators) (cached : Option Block) :
    Aimed { w with aggregators := aggregators, cached := cached } := by
  constructor
  · intro b member
    obtain ⟨a, before, _, same⟩ := exists_left alike member
    exact same.trans (aimed.scans a before)
  · intro window active b member
    obtain ⟨a, before, same, _⟩ := exists_left alike member
    exact same.trans (aimed.ranges window active a before)

theorem Aimed.feedCached (aimed : w.Aimed) (range : TimeRange) : (w.feedCached range).2.Aimed := by
  rw [WindowStage.feedCached]
  split
  · exact aimed
  split
  · exact aimed
  next block _ =>
  dsimp only
  split
  · exact ⟨aimed.scans, aimed.ranges⟩
  have frame := feedOpen_frame (block.skipTo range w.scan) w.aggregators
  split
  next fed =>
    rw [WindowStage.scan] at fed
    rw [WindowStage.scan, fed] at frame
    exact aimed.of_forall₂ frame _
  next fed =>
    rw [WindowStage.scan] at fed
    rw [WindowStage.scan, fed] at frame
    exact aimed.of_forall₂ frame _

/-- Where a window needs more rows, all rows at hand are used: one that is left would
begin past the window. -/
theorem cached_of_feedCached (aimed : w.Aimed) (active : w.active = some window)
    (more : w.feedCached window.range = (.ok false, v)) : v.cached = none := by
  have within : Within window.range w.scan w.aggregators := fun a member =>
    ⟨aimed.ranges window active a member, aimed.scans a member⟩
  rw [WindowStage.feedCached] at more
  split at more
  · cases more
  next unsettled =>
  split at more
  next none =>
    cases more
    exact none
  next block _ =>
  dsimp only at more
  split at more
  · cases more
    rfl
  split at more
  · cases more
  next stop aggregators fed =>
    have open_ : w.aggregators.all (·.isSettled) = false := by simpa [allSettled] using unsettled
    have cut := stop_of_feedOpen within fed
    rw [open_, if_neg Bool.false_ne_true] at cut
    have tail := Block.rows_sliceFrom_skipTo block window.range w.scan
    have passed : ((block.skipTo window.range w.scan).sliceFrom stop).startTime?.any _ = _ :=
      startTime_tail (cut ▸ tail)
    obtain ⟨done, rfl⟩ := Prod.mk.inj more
    have outside := (Bool.or_eq_false_iff.1 (Except.ok.inj done)).1
    have nothing := outside.symm.trans passed
    rw [eq_comm, Bool.not_eq_false', List.isEmpty_iff] at nothing
    exact if_pos ((Block.isEmpty_iff _).2 nothing)

/-- The stage is in a window that needs more rows, and holds none. -/
theorem suspended_of_feedCached (aimed : w.Aimed) (active : w.active = some window)
    (going : v.inputEnded = false) (more : w.feedCached window.range = (.ok false, v)) :
    v.Suspended := by
  constructor
  · obtain ⟨_, _, frame⟩ := w.feedCached_frame window.range
    rw [more] at frame
    have frame : v = _ := frame
    simp [frame, active]
  · exact unsettled_of_feedCached more
  · exact cached_of_feedCached aimed active more
  · exact going

theorem Aimed.advance (aimed : w.Aimed) (hasNext : σ → Except Failure Bool) (child : σ)
    (range : TimeRange) : (w.advance hasNext child range).2.Aimed := by
  have fed := aimed.feedCached range
  rw [WindowStage.advance]
  split
  next failed =>
    rw [failed] at fed
    exact fed
  next done =>
    rw [done] at fed
    exact fed
  next v more =>
    rw [more] at fed
    have emptied : Aimed { v with cached := none } := ⟨fed.scans, fed.ranges⟩
    dsimp only
    split
    · exact emptied
    · split <;> exact emptied

theorem Aimed.resolve (aimed : w.Aimed) (hasNext : σ → Except Failure Bool)
    (pull : σ → Attempt σ Answer) (child : σ) (range : TimeRange) :
    (w.resolve hasNext pull child range).2.1.Aimed := by
  have first := aimed.advance hasNext child range
  rcases w.resolve_cases hasNext pull child range with
    same | same | ⟨answer, d, x, _, _, taken, same⟩
  · rw [same]
    exact first
  · rw [same]
    exact ⟨first.scans, first.ranges⟩
  · have accepted : x.Aimed := by
      obtain ⟨_, _, rfl, _⟩ := accept_frame taken
      exact ⟨first.scans, first.ranges⟩
    rw [same]
    exact accepted.advance hasNext d range

theorem Aimed.enterWindow (aimed : w.Aimed) (entered : w.enterWindow = some (window, v)) :
    v.Aimed := by
  rw [WindowStage.enterWindow] at entered
  split at entered
  · cases entered
    exact aimed
  obtain ⟨⟨first, cursor⟩, met, same⟩ := Option.map_eq_some_iff.1 entered
  cases same
  constructor
  · intro b member
    obtain ⟨a, before, rfl⟩ := List.mem_map.1 member
    exact (aimed.scans a before).trans (Cursor.of_next? met).2.symm
  · intro window active b member
    cases active
    obtain ⟨a, before, rfl⟩ := List.mem_map.1 member
    rfl

theorem Aimed.leave (aimed : w.Aimed) (buffer : RowBuffer) :
    Aimed { w with active := none, buffer := buffer } :=
  ⟨aimed.scans, fun _ active => absurd active (Option.not_mem_none _)⟩

/-- Where the child is not pulled in a window, it does not matter what it would answer. -/
theorem resolve_idle (idle : w.pullFor hasNext child range = []) (other : σ → Attempt σ Answer) :
    w.resolve hasNext other child range = w.resolve hasNext pull child range := by
  rw [resolve_eq, resolve_eq]
  rw [pullFor] at idle
  rcases advanced : w.advance hasNext child range with ⟨e | _ | _, v⟩
  · rfl
  · rfl
  rw [advanced] at idle
  dsimp only at idle ⊢
  split at idle
  · cases idle
  next spent => rw [if_pos (by simpa using spent), if_pos (by simpa using spent)]

/-- The stage is at work on a window that needs more rows, and it may pull for them: it is `u`
once it has used the rows at hand. -/
structure Lacks (x u : WindowStage) : Prop where
  mayPull : x.mayPull = true
  room : x.buffer.isFull = false
  needs : ∃ window, x.active = some window ∧ x.feedCached window.range = (.ok false, u)

/-- Before it pulls the child, a call comes to a window that needs more rows. -/
def Stalls (hasNext : σ → Except Failure Bool) (w : WindowStage) (child : σ) (u : WindowStage) :
    Prop :=
  ∃ (x : WindowStage) (left : Nat), x.Lacks u ∧
    ∀ pull, w.next hasNext pull child = answered (x.closeWindows hasNext pull (left + 1) child)

/-- The same with so many windows left to close. -/
def StallsWithin (hasNext : σ → Except Failure Bool) (windows : Nat) (w : WindowStage) (child : σ)
    (u : WindowStage) : Prop :=
  ∃ (x : WindowStage) (left : Nat), x.Lacks u ∧
    ∀ pull, w.closeWindows hasNext pull windows child = x.closeWindows hasNext pull (left + 1) child

/-- The stage is aimed, it needs more rows when it pulls, and it is told that they come. -/
structure Pulls (hasNext : σ → Except Failure Bool) (windows : Nat) (w : WindowStage) (child : σ)
    (p : WindowStage × σ) : Prop where
  same : p.2 = child
  more : hasNext child = .ok true
  suspended : p.1.Suspended
  stalls : w.StallsWithin hasNext windows child p.1

theorem Aimed.pullFor (aimed : w.Aimed) (hasNext : σ → Except Failure Bool) (child : σ)
    (room : w.buffer.isFull = false) (entered : w.enterWindow = some (window, v)) (windows : Nat) :
    ∀ p ∈ v.pullFor hasNext child window.range, w.Pulls hasNext (windows + 1) child p := by
  intro p member
  obtain ⟨_, active, buffer, _⟩ := of_enterWindow entered
  have may := v.mayPull_advance hasNext child window.range
  rw [WindowStage.pullFor] at member
  split at member
  next input =>
    obtain ⟨u, fed, rfl, going, more⟩ := of_input input
    rw [input] at may
    split at member
    next permitted =>
      obtain rfl := List.mem_singleton.1 member
      rw [fed]
      have open_ : v.buffer.isFull = false := buffer ▸ room
      refine ⟨rfl, more, ?_, v, windows, ⟨may.symm.trans permitted, open_, window, active, fed⟩, ?_⟩
      · exact suspended_of_feedCached (aimed.enterWindow entered) active going fed
      · intro pull
        have again : v.enterWindow = some (window, v) := by rw [WindowStage.enterWindow, active]
        rw [closeWindows, closeWindows, if_neg (by simp [room]), if_neg (by simp [open_]), entered,
          again]
    · cases member
  next => cases member

/-- Up to the pull it does not matter what the child would answer. -/
theorem StallsWithin.cons {x : WindowStage} {buffer : RowBuffer} {windows : Nat} {u : WindowStage}
    (room : w.buffer.isFull = false) (entered : w.enterWindow = some (window, v))
    (idle : v.pullFor hasNext child window.range = [])
    (done : v.resolve hasNext pull child window.range = (.ok true, x, child))
    (given : x.buffer.append window.outputTime (outputRow x.aggregators) = .ok buffer)
    (stalls : StallsWithin hasNext windows { x with active := none, buffer := buffer } child u) :
    w.StallsWithin hasNext (windows + 1) child u := by
  obtain ⟨y, left, lacks, same⟩ := stalls
  refine ⟨y, left, lacks, fun other => ?_⟩
  have resolved := (resolve_idle idle other).trans done
  rw [← same other, closeWindows, if_neg (by simp [room]), entered]
  simp only [resolved, given]

/-- The child is pulled only when it tells that more comes, for a window that needs more
rows, and when no rows are at hand. -/
theorem Aimed.pullsWithin (hasNext : σ → Except Failure Bool) (pull : σ → Attempt σ Answer)
    (windows : Nat) (aimed : w.Aimed) (child : σ) :
    (w.closeWindows hasNext pull windows child).2.1.Aimed ∧
      ∀ p ∈ w.pullsWithin hasNext pull windows child, w.Pulls hasNext windows child p := by
  induction windows generalizing w child with
  | zero => exact ⟨aimed, by simp [WindowStage.pullsWithin]⟩
  | succ windows ih =>
    rw [closeWindows, WindowStage.pullsWithin]
    split
    · exact ⟨aimed, by simp⟩
    next room =>
    rw [Bool.not_eq_true] at room
    rcases entered : w.enterWindow with _ | ⟨window, u⟩
    · exact ⟨aimed, by simp⟩
    have first := aimed.pullFor hasNext child room entered windows
    have resolved := (aimed.enterWindow entered).resolve hasNext pull child window.range
    obtain ⟨pulling, _⟩ := u.resolve_pulling hasNext pull child window.range
    dsimp only
    rcases done : u.resolve hasNext pull child window.range with ⟨e | _ | _, x, d⟩
    all_goals rw [done] at resolved pulling
    · simpa only [List.append_nil] using ⟨resolved, first⟩
    · simpa only [List.append_nil] using ⟨resolved, first⟩
    dsimp only
    rcases given : x.buffer.append window.outputTime (outputRow x.aggregators) with e | buffer
    · simpa only [List.append_nil] using ⟨Aimed.leave resolved x.buffer, first⟩
    obtain ⟨last, later⟩ := ih (Aimed.leave resolved buffer) d
    refine ⟨last, fun p member => (List.mem_append.1 member).elim (first p) fun further => ?_⟩
    have pulls := later p further
    have unspent := (closeWindows_pulling hasNext pull windows _ d).mayPull_of_mem further
    generalize pulled : u.pullFor hasNext child window.range = moments at pulling
    cases pulling with
    | none =>
      exact ⟨pulls.same, pulls.more, pulls.suspended,
        pulls.stalls.cons room entered pulled done given⟩
    | once _ _ _ spent => exact absurd (spent.symm.trans unspent) Bool.false_ne_true

theorem Aimed.next (aimed : w.Aimed) (hasNext : σ → Except Failure Bool)
    (pull : σ → Attempt σ Answer) (child : σ) :
    (w.next hasNext pull child).2.1.Aimed ∧ ∀ p ∈ w.pulls hasNext pull child,
      hasNext child = .ok true ∧ p.1.Suspended ∧ w.Stalls hasNext child p.1 := by
  have anew : w.anew.Aimed := ⟨aimed.scans, aimed.ranges⟩
  obtain ⟨after, moments⟩ := anew.pullsWithin hasNext pull w.anew.windowsLeft child
  rw [pulls]
  by_cases closed : w.closed = true
  · rw [WindowStage.next, if_pos closed, if_pos closed]
    exact ⟨aimed, by simp⟩
  · rw [Bool.not_eq_true] at closed
    rw [if_neg (by simp [closed])]
    constructor
    · rw [next_answered closed]
      generalize w.anew.closeWindows hasNext pull w.anew.windowsLeft child = closing at after ⊢
      obtain ⟨e | _, v, c⟩ := closing
      · exact after
      · rw [answered, answer_eq]
        exact ⟨after.scans, after.ranges⟩
    · intro p member
      obtain ⟨-, more, suspended, x, left, lacks, same⟩ := moments p member
      refine ⟨more, suspended, x, left, lacks, fun other => ?_⟩
      rw [next_answered closed, same other]

end WindowStage

section
variable {α : Type} {q p : α → Prop} {x : α} {list : List α}

/-- Before every member that is `p` comes one that is `q`. -/
def Shielded (q p : α → Prop) (list : List α) : Prop :=
  ∀ before x after, list = before ++ x :: after → p x → ∃ y ∈ before, q y

/-- Between any two members that are `p` comes one that is `q`. -/
def Parted (q p : α → Prop) (list : List α) : Prop :=
  ∀ before x after, list = before ++ x :: after → p x → Shielded q p after

theorem shielded_of_none (none : ∀ x ∈ list, ¬ p x) : Shielded q p list := by
  rintro before x after rfl holds
  exact absurd holds (none x (by simp))

theorem shielded_cons_of (free : ¬ p x) (shields : q x) : Shielded q p (x :: list) := by
  intro before y after same holds
  cases before with
  | nil =>
    cases same
    exact absurd holds free
  | cons first before =>
    cases same
    exact ⟨x, List.mem_cons_self, shields⟩

theorem Shielded.append {first : List α} (shielded : Shielded q p list)
    (free : ∀ x ∈ first, ¬ p x) : Shielded q p (first ++ list) := by
  intro before x after same holds
  rcases List.append_eq_append_iff.1 same with ⟨between, rfl, rfl⟩ | ⟨between, rfl, tail⟩
  · obtain ⟨y, member, shields⟩ := shielded between x after rfl holds
    exact ⟨y, List.mem_append_right _ member, shields⟩
  · cases between with
    | nil =>
      obtain ⟨_, member, _⟩ := shielded [] x after tail.symm holds
      cases member
    | cons other between =>
      cases tail
      exact absurd holds (free x (by simp))

theorem Shielded.tail (shielded : Shielded q p (x :: list)) (other : ¬ q x) :
    Shielded q p list := by
  rintro before y after rfl holds
  obtain ⟨z, member, shields⟩ := shielded (x :: before) y after rfl holds
  rcases List.mem_cons.1 member with rfl | later
  · exact absurd shields other
  · exact ⟨z, later, shields⟩

theorem Shielded.not_head (shielded : Shielded q p (x :: list)) : ¬ p x := by
  intro holds
  obtain ⟨_, member, _⟩ := shielded [] x list rfl holds
  cases member

theorem parted_nil : Parted q p [] := by
  intro before x after same
  cases before <;> cases same

theorem parted_cons : Parted q p (x :: list) ↔ (p x → Shielded q p list) ∧ Parted q p list := by
  constructor
  · intro parted
    refine ⟨parted [] x list rfl, ?_⟩
    rintro before y after rfl
    exact parted (x :: before) y after rfl
  · rintro ⟨first, later⟩ before y after same
    cases before with
    | nil =>
      cases same
      exact first
    | cons _ before =>
      cases same
      exact later before y after rfl

end

namespace Dealing

def IsNext : Dealing → Prop
  | next _ => True
  | _ => False

def IsReadiness : Dealing → Prop
  | readiness _ => True
  | _ => False

end Dealing

/-- A stage asks and pulls a source as the source can be asked and pulled. -/
theorem Tree.next_window_source {σ : Type} [Operator σ] (w : WindowStage) (s : σ) :
    (window w (source s)).next = (w.next Operator.hasNext Operator.next s).map id fun after =>
      .window after.1 (.source after.2) := by
  rw [next_window_live, WindowStage.next_map (f := source) (fun _ => rfl) fun _ _ => rfl]
  rfl

namespace WindowStage
variable {σ : Type} [Operator σ] {w v u : WindowStage} {l k j : Logged σ} {event : Happening σ}
  {events : List (Happening σ)} {made : List Dealing}

/-- What an event makes of a stage and of the source below it, which logs the calls on it. -/
structure Happens (w : WindowStage) (l : Logged σ) (event : Happening σ) (made : List Dealing)
    (v : WindowStage) (k : Logged σ) : Prop where
  logged : (Tree.window w (.source l)).happen (event.within Logged.lift) = .window v (.source k)
  plain : (Tree.window w (.source l.operator)).happen event = .window v (.source k.operator)
  dealings : k.dealings = l.dealings ++ made
  once : made.length ≤ 1
  aimed : w.Aimed → v.Aimed
  /-- A stage that is done with the source stays so. -/
  done : w.asksChild = false → v.asksChild = false ∧ ∀ d ∈ made, ¬ d.IsNext
  ended : .next (.ok .endOfStream) ∈ made → v.asksChild = false
  asked : event = .asked .readiness → w.asksChild = true → ∃ told, made = [.readiness told]
  pulled : ∀ answer, .next answer ∈ made → event = .asked .next ∧
    answer = (Operator.next l.operator).1 ∧ Operator.hasNext l.operator = .ok true ∧
    (w.Aimed → ∃ u, w.Stalls Operator.hasNext l u ∧ u.Suspended)

/-- An event that makes no call on the source. -/
theorem Happens.quiet
    (logged : (Tree.window w (.source l)).happen (event.within Logged.lift) = .window v (.source k))
    (plain : (Tree.window w (.source l.operator)).happen event = .window v (.source k.operator))
    (same : k.dealings = l.dealings) (aimed : w.Aimed → v.Aimed)
    (done : w.asksChild = false → v.asksChild = false)
    (asked : event = .asked .readiness → w.asksChild = false) : Happens w l event [] v k where
  logged := logged
  plain := plain
  dealings := same.trans (List.append_nil _).symm
  once := Nat.zero_le 1
  aimed := aimed
  done idle := ⟨done idle, nofun⟩
  ended := nofun
  asked checks asks := absurd (asks.symm.trans (asked checks)) nofun
  pulled := nofun

theorem happens_next (w : WindowStage) (l : Logged σ) :
    ∃ made v k, Happens w l (.asked .next) made v k := by
  have other : (.asked .next : Happening σ) ≠ .asked .readiness := by simp
  have plain := Tree.next_window_source w l.operator
  have erased : w.next Operator.hasNext Operator.next l.operator =
      (w.next Operator.hasNext Operator.next l).map id (Prod.map id Logged.operator) :=
    next_map (f := Logged.operator) (fun _ => rfl) (fun _ _ => rfl) w l
  rw [erased] at plain
  have logged := congrArg Prod.snd (Tree.next_window_source w l)
  have plain := congrArg Prod.snd plain
  by_cases closed : w.closed = true
  · rw [next, if_pos closed] at logged plain
    exact ⟨[], w, l, .quiet logged plain rfl id id fun same => absurd same other⟩
  rw [Bool.not_eq_true] at closed
  have pulling := next_pulling closed Operator.hasNext Operator.next l
  have moments := fun aimed : w.Aimed => aimed.next Operator.hasNext Operator.next l
  generalize w.pulls Operator.hasNext Operator.next l = pulls,
    w.next Operator.hasNext Operator.next l = called at logged plain pulling moments
  obtain ⟨outcome, v, k⟩ := called
  cases pulling with
  | none _ same =>
    have still : v.inputEnded = w.inputEnded := same
    refine ⟨[], v, k, .quiet logged plain rfl (fun aimed => (moments aimed).1)
      (fun idle => ?_) fun same => absurd same other⟩
    have ended : w.inputEnded = true := by simpa [asksChild, closed] using idle
    simp [asksChild, still.trans ended]
  | @once u _ _ _ going more _ _ ends =>
    refine ⟨[.next (Operator.next l.operator).1], v, _, logged, plain, rfl, Nat.le_refl 1,
      fun aimed => (moments aimed).1, fun idle => ?_, fun member => ?_,
      fun same => absurd same other, fun answer member => ?_⟩
    · have going : w.inputEnded = false := going
      simp [asksChild, closed, going] at idle
    · have ended : v.inputEnded = true :=
        ends.2 (Dealing.next.inj (List.mem_singleton.1 member)).symm
      simp [asksChild, ended]
    · refine ⟨rfl, Dealing.next.inj (List.mem_singleton.1 member), more, fun aimed => ?_⟩
      obtain ⟨_, suspended, stalls⟩ := (moments aimed).2 _ List.mem_cons_self
      exact ⟨u, stalls, suspended⟩

/-- Whatever happens to a stage over a source, it stays one. -/
theorem exists_happens (w : WindowStage) (l : Logged σ) (event : Happening σ) :
    ∃ made v k, Happens w l event made v k := by
  cases event with
  | changed path change =>
    cases path with
    | nil => exact ⟨[], w, l, .quiet rfl rfl rfl id id nofun⟩
    | cons index path =>
      rcases index with _ | index
      · cases path with
        | nil => exact ⟨[], w, l.lift change, .quiet rfl rfl rfl id id nofun⟩
        | cons => exact ⟨[], w, l, .quiet rfl rfl rfl id id nofun⟩
      · exact ⟨[], w, l, .quiet rfl rfl rfl id id nofun⟩
  | asked request =>
    cases request with
    | hasNext => exact ⟨[], w, l, .quiet rfl rfl rfl id id nofun⟩
    | next => exact happens_next w l
    | close =>
      by_cases closed : w.closed = true
      · refine ⟨[], w, l, .quiet ?_ ?_ rfl id id nofun⟩
        · exact congrArg Prod.snd (if_pos closed)
        · exact congrArg Prod.snd (if_pos closed)
      · refine ⟨[.close (Operator.close l.operator).1], w.close, (Operator.close l).2,
          congrArg Prod.snd (if_neg closed), congrArg Prod.snd (if_neg closed), rfl, Nat.le_refl 1,
          fun aimed => ?_, fun _ => ⟨rfl, ?_⟩, ?_, nofun, ?_⟩
        · exact ⟨aimed.scans, fun _ active => absurd active (Option.not_mem_none _)⟩
        all_goals simp [Dealing.IsNext]
    | readiness =>
      by_cases asks : w.asksChild = true
      · refine ⟨[.readiness (Operator.readiness l.operator).1], w, (Operator.readiness l).2, ?_, ?_,
          rfl, Nat.le_refl 1, id, fun idle => ?_, ?_, fun _ _ => ⟨_, rfl⟩, ?_⟩
        · exact (congrArg Prod.snd (if_pos asks) : (Tree.window w (.source l)).readiness.2 = _)
        · exact (congrArg Prod.snd (if_pos asks) :
            (Tree.window w (.source l.operator)).readiness.2 = _)
        · exact absurd (asks.symm.trans idle) nofun
        all_goals simp
      · refine ⟨[], w, l, .quiet ?_ ?_ rfl id id fun _ => by simpa using asks⟩
        · exact (congrArg Prod.snd (if_neg asks) : (Tree.window w (.source l)).readiness.2 = _)
        · exact (congrArg Prod.snd (if_neg asks) :
            (Tree.window w (.source l.operator)).readiness.2 = _)

/-- One event after the other. -/
inductive Passes : WindowStage → Logged σ → List (Happening σ) → List Dealing →
    WindowStage → Logged σ → Prop where
  | nil (w : WindowStage) (l : Logged σ) : Passes w l [] [] w l
  | cons {w v u : WindowStage} {l k j : Logged σ} {event : Happening σ}
      {events : List (Happening σ)} {made rest : List Dealing}
      (head : Happens w l event made v k) (tail : Passes v k events rest u j) :
      Passes w l (event :: events) (made ++ rest) u j

theorem exists_passes (w : WindowStage) (l : Logged σ) (events : List (Happening σ)) :
    ∃ made v k, Passes w l events made v k := by
  induction events generalizing w l with
  | nil => exact ⟨[], w, l, .nil w l⟩
  | cons event events ih =>
    obtain ⟨made, v, k, head⟩ := exists_happens w l event
    obtain ⟨rest, u, j, tail⟩ := ih v k
    exact ⟨made ++ rest, u, j, .cons head tail⟩

namespace Passes

theorem logged (passes : Passes w l events made v k) :
    (Tree.window w (.source l)).after (events.map (.within Logged.lift)) =
      .window v (.source k) := by
  induction passes with
  | nil => rfl
  | cons head _ ih =>
    rw [List.map_cons, Tree.after, List.foldl_cons, head.logged]
    exact ih

theorem plain (passes : Passes w l events made v k) :
    (Tree.window w (.source l.operator)).after events = .window v (.source k.operator) := by
  induction passes with
  | nil => rfl
  | cons head _ ih =>
    rw [Tree.after, List.foldl_cons, head.plain]
    exact ih

theorem dealings (passes : Passes w l events made v k) : k.dealings = l.dealings ++ made := by
  induction passes with
  | nil => exact (List.append_nil _).symm
  | cons head _ ih => rw [ih, head.dealings, List.append_assoc]

theorem aimed (passes : Passes w l events made v k) (aimed : w.Aimed) : v.Aimed := by
  induction passes with
  | nil => exact aimed
  | cons head _ ih => exact ih (head.aimed aimed)

/-- A stage that is done with its source pulls it no more. -/
theorem done (passes : Passes w l events made v k) (idle : w.asksChild = false) :
    ∀ d ∈ made, ¬ d.IsNext := by
  induction passes with
  | nil => exact nofun
  | cons head _ ih =>
    obtain ⟨still, none⟩ := head.done idle
    exact fun d member => (List.mem_append.1 member).elim (none d) (ih still d)

theorem pairwise (passes : Passes w l events made v k) :
    made.Pairwise fun d e => d = .next (.ok .endOfStream) → ¬ e.IsNext := by
  induction passes with
  | nil => exact .nil
  | @cons _ _ _ _ _ _ _ _ made rest head tail ih =>
    refine List.pairwise_append.2 ⟨?_, ih, fun d now e later ends => ?_⟩
    · have short := head.once
      rcases made with _ | ⟨d, _ | ⟨_, _⟩⟩
      · exact .nil
      · exact List.pairwise_singleton _ d
      · simp at short
    · subst ends
      exact tail.done (head.ended now) e later

/-- Where the caller checks the readiness before it pulls, so does the stage. -/
theorem shielded (passes : Passes w l events made v k)
    (shielded : Shielded (· = .asked .readiness) (· = .asked .next) events) :
    Shielded Dealing.IsReadiness Dealing.IsNext made := by
  induction passes with
  | nil => exact shielded_of_none nofun
  | @cons w _ _ _ _ _ event _ made rest head tail ih =>
    by_cases checked : event = .asked .readiness
    · cases asks : w.asksChild with
      | true =>
        obtain ⟨told, rfl⟩ := head.asked checked asks
        exact shielded_cons_of id trivial
      | false =>
        obtain ⟨still, none⟩ := head.done asks
        exact shielded_of_none fun d member =>
          (List.mem_append.1 member).elim (none d) (tail.done still d)
    · refine (ih (shielded.tail checked)).append fun d member pulls => ?_
      cases d with
      | next answer => exact shielded.not_head (head.pulled answer member).1
      | hasNext | readiness | close => exact pulls

theorem parted (passes : Passes w l events made v k)
    (parted : Parted (· = .asked .readiness) (· = .asked .next) events) :
    Parted Dealing.IsReadiness Dealing.IsNext made := by
  induction passes with
  | nil => exact parted_nil
  | @cons _ _ _ _ _ _ _ _ made rest head tail ih =>
    obtain ⟨first, others⟩ := parted_cons.1 parted
    have short := head.once
    rcases made with _ | ⟨d, _ | ⟨_, _⟩⟩
    · exact ih others
    · refine parted_cons.2 ⟨fun pulls => ?_, ih others⟩
      cases d with
      | next answer =>
        exact tail.shielded (first (head.pulled answer List.mem_cons_self).1)
      | hasNext | readiness | close => exact pulls.elim
    · simp at short

end Passes

end WindowStage

namespace Query
variable {q : Query}

theorem aimed_create {context : Context} {schema : Schema} {fresh : List Aggregator}
    {series : WindowSeries} (made : q.aggregators schema = .ok fresh) :
    (WindowStage.create context fresh (.start series q.scan)).Aimed := by
  constructor
  · intro a member
    obtain ⟨spec, _, created⟩ := exists_left (aggregators_eq_ok.1 made).2 member
    obtain ⟨_, _, _, _, _, _, scan, _⟩ := Aggregator.of_create created
    exact scan
  · exact fun _ active => absurd active (Option.not_mem_none _)

/-- Whatever is asked of a window stage and whatever its child does, a child that logs the
calls on it tells: a call pulls it at most once, and only where the stage has come to a window
that needs more rows, when no rows are at hand, when the child tells that more comes, and when
it has not ended. A caller that checks the readiness between any two calls makes the stage
check that of the child between any two pulls. The log makes no difference to the stage. -/
theorem dealings_windowStage {σ : Type} [Operator σ] {context : Context} {stage : WindowStage}
    {s : σ} (accepted : q.windowStage context (Operator.schema s) = .ok stage)
    (events : List (Happening σ)) :
    ∃ w l, (Tree.window stage (.source (Logged.start s))).after
          (events.map (.within Logged.lift)) = .window w (.source l) ∧
      (Tree.window stage (.source s)).after events = .window w (.source l.operator) ∧
      (Tree.window w (.source l)).next = (w.next Operator.hasNext Operator.next l).map id
        (fun after => .window after.1 (.source after.2)) ∧
      (∀ event : Happening σ, ∃ made v k,
          (Tree.window w (.source l)).happen (event.within Logged.lift) =
          .window v (.source k) ∧ k.dealings = l.dealings ++ made ∧ made.length ≤ 1 ∧
        ∀ answer, .next answer ∈ made → event = .asked .next ∧
          answer = (Operator.next l.operator).1 ∧ Operator.hasNext l.operator = .ok true ∧
          ∃ u, w.Stalls Operator.hasNext l u ∧ u.Suspended) ∧
      l.dealings.Pairwise (fun d e => d = .next (.ok .endOfStream) → ¬ e.IsNext) ∧
      (Parted (· = .asked .readiness) (· = .asked .next) events →
        Parted Dealing.IsReadiness Dealing.IsNext l.dealings) := by
  obtain ⟨fresh, series, made, _, rfl⟩ := windowStage_eq_ok accepted
  obtain ⟨all, w, l, passes⟩ :=
    WindowStage.exists_passes (.create context fresh (.start series q.scan)) (.start s) events
  have aimed := passes.aimed (aimed_create made)
  obtain rfl : l.dealings = all := passes.dealings
  refine ⟨w, l, passes.logged, passes.plain, Tree.next_window_source w l, fun event => ?_,
    passes.pairwise, passes.parted⟩
  obtain ⟨made, v, k, happens⟩ := WindowStage.exists_happens w l event
  refine ⟨made, v, k, happens.logged, happens.dealings, happens.once, fun answer member => ?_⟩
  obtain ⟨asked, same, more, stalls⟩ := happens.pulled answer member
  exact ⟨asked, same, more, stalls aimed⟩

/-- The first pull brings rows, the second fails, and the third is refused. -/
theorem dealings_windowStage_unruly :
    ∃ stage tree, sample.windowStage .standard (Operator.schema unruly) = .ok stage ∧
      tree = (Tree.window stage (.source (Logged.start unruly))).after
        (([.next, .readiness, .next, .readiness, .next].map .asked).map
          (.within Logged.lift)) ∧
      (tree.sources.map fun s => s.2.dealings.length) = [5] ∧
      ∃ w l, tree = .window w (.source l) ∧
        l.dealings.Pairwise (fun d e => d = .next (.ok .endOfStream) → ¬ e.IsNext) ∧
        Parted Dealing.IsReadiness Dealing.IsNext l.dealings := by
  have accepted : sample.windowStage .standard (Operator.schema unruly) = .ok _ := rfl
  obtain ⟨w, l, same, _, _, _, last, parted⟩ := dealings_windowStage accepted
    ([.next, .readiness, .next, .readiness, .next].map .asked)
  refine ⟨_, _, accepted, rfl, by decide +kernel, w, l, same, last, parted ?_⟩
  have checked : ∀ rest : List (Happening Script), Shielded (· = .asked .readiness)
      (· = .asked .next) (.asked .readiness :: rest) := fun rest => shielded_cons_of nofun rfl
  refine parted_cons.2 ⟨fun _ => checked _, parted_cons.2 ⟨nofun, ?_⟩⟩
  refine parted_cons.2 ⟨fun _ => checked _, parted_cons.2 ⟨nofun, ?_⟩⟩
  exact parted_cons.2 ⟨fun _ => shielded_of_none nofun, parted_nil⟩

end Query
end WindowFold
