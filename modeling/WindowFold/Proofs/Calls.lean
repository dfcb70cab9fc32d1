import WindowFold.Proofs.Breaches

/-! What a call of a stage does to its children. Each is left as it was or pulled
once, and none that has ended is pulled. -/
namespace WindowFold

variable {σ : Type} {hasNext : σ → Except Failure Bool}

namespace WindowStage

/-- Where a call stands: the stage was `w` over `child` at its start, and the
child's pull is `pulled`. -/
structure Called {α : Type} (w : WindowStage) (child : σ) (pulled : Attempt σ Answer)
    (outcome : Except Failure α) (v : WindowStage) (c : σ) : Prop where
  closed : v.closed = w.closed
  ended : w.inputEnded = true → v.inputEnded = true
  child : c = child ∨ w.inputEnded = false ∧ c = pulled.2
  lawful : (w.inputEnded = false → Lawful pulled.1) → Lawful outcome

variable {w v : WindowStage} {child c : σ} {pulled : Attempt σ Answer} {range : TimeRange}

theorem feedCached_frame (v : WindowStage) (range : TimeRange) :
    ∃ aggregators cached, (v.feedCached range).2 =
      { v with aggregators := aggregators, cached := cached } := by
  rw [feedCached]
  split
  · exact ⟨_, _, rfl⟩
  split
  · exact ⟨_, _, rfl⟩
  dsimp only
  split
  · exact ⟨_, _, rfl⟩
  split <;> exact ⟨_, _, rfl⟩

theorem lawful_feedCached (v : WindowStage) (range : TimeRange) :
    Lawful (v.feedCached range).1 := by
  rw [feedCached]
  split
  · exact lawful_ok _
  split
  · exact lawful_ok _
  next block _ =>
  dsimp only
  split
  · exact lawful_ok _
  have fed := lawful_feedOpen (block.skipTo range v.scan) v.aggregators
  split
  next failed => exact fed.error (congrArg Prod.fst failed)
  next => exact lawful_ok _

theorem advance_frame (hasNext : σ → Except Failure Bool) (v : WindowStage) (c : σ)
    (range : TimeRange) : ∃ aggregators cached, (v.advance hasNext c range).2 =
      { v with aggregators := aggregators, cached := cached } := by
  obtain ⟨aggregators, cached, frame⟩ := v.feedCached_frame range
  rw [advance]
  split
  next failed =>
    rw [failed] at frame
    exact ⟨_, _, frame⟩
  next done =>
    rw [done] at frame
    exact ⟨_, _, frame⟩
  next u more =>
    rw [more] at frame
    dsimp only at frame ⊢
    subst frame
    split
    · exact ⟨_, _, rfl⟩
    split <;> exact ⟨_, _, rfl⟩

theorem lawful_advance (told : ∀ c, Lawful (hasNext c)) (v : WindowStage) (c : σ)
    (range : TimeRange) : Lawful (v.advance hasNext c range).1 ∧
      ((v.advance hasNext c range).1 = .ok .input → v.inputEnded = false) := by
  obtain ⟨aggregators, cached, frame⟩ := v.feedCached_frame range
  have fed := v.lawful_feedCached range
  rw [advance]
  split
  next failed =>
    rw [failed] at fed
    exact ⟨fed.error rfl, nofun⟩
  next done => exact ⟨lawful_ok _, nofun⟩
  next u more =>
    rw [more] at frame
    dsimp only at frame ⊢
    subst frame
    have asked := told c
    split
    · exact ⟨lawful_ok _, nofun⟩
    next going =>
    split
    next failed => exact ⟨asked.error failed, nofun⟩
    · exact ⟨lawful_ok _, nofun⟩
    · exact ⟨lawful_ok _, fun _ => by simpa using going⟩

theorem accept_frame {answer : Answer} (accepted : v.accept answer = .ok w) :
    ∃ cached ended, w = { v with cached := cached, inputEnded := ended } ∧
      (v.inputEnded = true → ended = true) := by
  cases answer with
  | notReady =>
    cases accepted
    exact ⟨_, _, rfl, id⟩
  | endOfStream =>
    cases accepted
    exact ⟨_, _, rfl, fun _ => rfl⟩
  | block block =>
    rw [accept] at accepted
    split at accepted
    · contradiction
    · cases accepted
      split <;> exact ⟨_, _, rfl, id⟩

theorem lawful_accept (v : WindowStage) (answer : Answer) : Lawful (v.accept answer) := by
  cases answer with
  | notReady | endOfStream => exact lawful_ok _
  | block block =>
    have checked := block.lawful_checkScanOrder v.scan
    rw [accept]
    split
    next failed => exact checked.error failed
    next => exact lawful_ok _

theorem enterWindow_frame {window : Window} (entered : v.enterWindow = some (window, w)) :
    w.closed = v.closed ∧ w.inputEnded = v.inputEnded := by
  rw [enterWindow] at entered
  split at entered
  · cases entered
    exact ⟨rfl, rfl⟩
  · obtain ⟨_, _, same⟩ := Option.map_eq_some_iff.1 entered
    cases same
    exact ⟨rfl, rfl⟩

section
variable {α β : Type} {outcome : Except Failure α} {other : Except Failure β}

/-- The stage itself goes on, with the child as it is. -/
theorem Called.goOn (called : Called w child pulled outcome v c) {u : WindowStage}
    (closed : u.closed = v.closed) (ended : v.inputEnded = true → u.inputEnded = true)
    (lawful : (w.inputEnded = false → Lawful pulled.1) → Lawful other) :
    Called w child pulled other u c where
  closed := closed.trans called.closed
  ended before := ended (called.ended before)
  child := called.child
  lawful := lawful

end

theorem resolve_called (told : ∀ c, Lawful (hasNext c))
    (called : Called w child pulled (.ok () : Except Failure Unit) v c) (range : TimeRange) :
    Called w child pulled (v.resolve hasNext (fun _ => pulled) c range).1
      (v.resolve hasNext (fun _ => pulled) c range).2.1
      (v.resolve hasNext (fun _ => pulled) c range).2.2 := by
  obtain ⟨aggregators, cached, frame⟩ := v.advance_frame hasNext c range
  obtain ⟨advanced, input⟩ := lawful_advance told v c range
  rw [resolve]
  split
  next failed =>
    rw [failed] at frame advanced
    dsimp only at frame
    subst frame
    exact called.goOn rfl id fun _ => advanced.error rfl
  next done =>
    rw [done] at frame
    dsimp only at frame
    subst frame
    exact called.goOn rfl id fun _ => lawful_ok _
  next u more =>
    have open_ := input (congrArg Prod.fst more)
    rw [more] at frame
    dsimp only at frame
    subst frame
    split
    · exact called.goOn rfl id fun _ => lawful_ok _
    -- The child has not ended: this is where it is pulled.
    have going : w.inputEnded = false := by
      by_contra ended
      exact absurd ((called.ended (by simpa using ended)).symm.trans open_) nofun
    dsimp only
    split
    next =>
      exact ⟨called.closed, called.ended, .inr ⟨going, rfl⟩, fun lawful => (lawful going).error rfl⟩
    next answer d =>
    have accepted := lawful_accept
      { v with aggregators := aggregators, cached := cached, mayPull := false } answer
    split
    next failed =>
      exact ⟨called.closed, called.ended, .inr ⟨going, rfl⟩, fun _ => accepted.error failed⟩
    next x taken =>
    obtain ⟨_, _, same, ends⟩ := accept_frame taken
    have closed : x.closed = v.closed := by rw [same]
    have ended : v.inputEnded = true → x.inputEnded = true := by
      rw [same]
      exact ends
    obtain ⟨_, _, again⟩ := x.advance_frame hasNext d range
    obtain ⟨lawful, _⟩ := lawful_advance told x d range
    split
    next failed =>
      rw [failed] at again lawful
      dsimp only at again
      subst again
      exact ⟨closed.trans called.closed, fun before => ended (called.ended before),
        .inr ⟨going, rfl⟩, fun _ => lawful.error rfl⟩
    next done =>
      rw [done] at again
      dsimp only at again
      subst again
      exact ⟨closed.trans called.closed, fun before => ended (called.ended before),
        .inr ⟨going, rfl⟩, fun _ => lawful_ok _⟩

theorem closeWindows_called (told : ∀ c, Lawful (hasNext c)) (windows : Nat)
    (called : Called w child pulled (.ok () : Except Failure Unit) v c) :
    Called w child pulled (v.closeWindows hasNext (fun _ => pulled) windows c).1
      (v.closeWindows hasNext (fun _ => pulled) windows c).2.1
      (v.closeWindows hasNext (fun _ => pulled) windows c).2.2 := by
  induction windows generalizing v c with
  | zero => exact called
  | succ windows ih =>
    rw [closeWindows]
    split
    · exact called
    split
    · exact called
    next window u entered =>
    obtain ⟨closed, same⟩ := enterWindow_frame entered
    have enters : Called w child pulled (.ok () : Except Failure Unit) u c :=
      called.goOn closed (fun before => same.trans before) fun _ => lawful_ok _
    have resolved := resolve_called told enters window.range
    split
    next failed =>
      rw [failed] at resolved
      exact resolved.goOn rfl id fun lawful => (resolved.lawful lawful).error rfl
    next waits =>
      rw [waits] at resolved
      exact resolved.goOn rfl id fun _ => lawful_ok _
    next x d done =>
      rw [done] at resolved
      have appended := x.buffer.lawful_append window.outputTime (outputRow x.aggregators)
      dsimp only
      split
      next failed => exact resolved.goOn rfl id fun _ => appended.error failed
      next => exact ih (resolved.goOn rfl id fun _ => lawful_ok _)

/-- A call leaves the child as it was or pulls it once; a child that has ended is
not pulled. A breach can only come from that pull. -/
theorem next_called (told : ∀ c, Lawful (hasNext c)) (w : WindowStage) (child : σ)
    (pulled : Attempt σ Answer) (running : w.closed = false) :
    Called w child pulled (w.next hasNext (fun _ => pulled) child).1
      (w.next hasNext (fun _ => pulled) child).2.1
        (w.next hasNext (fun _ => pulled) child).2.2 := by
  have start : Called w child pulled (.ok () : Except Failure Unit)
      { w with buffer := w.buffer.clear, mayPull := true } child :=
    ⟨rfl, id, .inl rfl, fun _ => lawful_ok _⟩
  have closes := closeWindows_called told
    (windowsLeft { w with buffer := w.buffer.clear, mayPull := true }) start
  rw [next, if_neg (by simp [running])]
  dsimp only
  split
  next failed =>
    rw [failed] at closes
    exact closes.goOn rfl id fun lawful => (closes.lawful lawful).error rfl
  next x d done =>
    rw [done] at closes
    have built := x.buffer.lawful_build
    rw [answer]
    split
    · exact closes.goOn rfl id fun _ => built.map _
    · split
      · exact closes.goOn rfl id fun _ => lawful_ok _
      · exact closes.goOn rfl id fun _ => lawful_ok _

end WindowStage

/-- The same of one child of a merge. -/
structure Lane.Called (pull : σ → Attempt σ Answer) (inlet : Inlet σ) (lane : Lane σ) : Prop where
  own : lane.pull = fun _ => pull inlet.child
  ended : inlet.ended = true → lane.inlet.ended = true
  child : lane.inlet.child = inlet.child ∨
    inlet.ended = false ∧ lane.inlet.child = (pull inlet.child).2

namespace MergeStage
variable {pull : σ → Attempt σ Answer} {inlets : List (Inlet σ)} {lanes : List (Lane σ)}
  {m : MergeStage}

/-- Every child that has not ended can be pulled without a breach. -/
def AllLawful (pull : σ → Attempt σ Answer) (inlets : List (Inlet σ)) : Prop :=
  ∀ inlet ∈ inlets, inlet.ended = false → Lawful (pull inlet.child).1

theorem prepare_called (told : ∀ c, Lawful (hasNext c)) (scan : Scan)
    (called : List.Forall₂ (Lane.Called pull) inlets lanes) :
    List.Forall₂ (Lane.Called pull) inlets (prepare hasNext scan lanes).2 ∧
      (AllLawful pull inlets → Lawful (prepare hasNext scan lanes).1) := by
  induction called with
  | nil => exact ⟨.nil, fun _ => lawful_ok _⟩
  | @cons inlet lane inlets lanes first others ih =>
    obtain ⟨later, lawful⟩ := ih
    have rest : AllLawful pull (inlet :: inlets) → Lawful (prepare hasNext scan lanes).1 :=
      fun all => lawful fun i member => all i (List.mem_cons_of_mem _ member)
    rw [prepare]
    dsimp only
    split
    · exact ⟨.cons first later, rest⟩
    next open_ =>
    have asked := told lane.inlet.child
    split
    next failed => exact ⟨.cons first others, fun _ => asked.error failed⟩
    · exact ⟨.cons ⟨first.own, fun _ => rfl, first.child⟩ later, rest⟩
    split
    · exact ⟨.cons first others, fun _ => lawful_ok _⟩
    -- The child has not ended: this is where it is pulled.
    have going : inlet.ended = false := by
      by_contra ended
      have ended := first.ended (by simpa using ended)
      simp [ended] at open_
    have pulled : ∀ child held ended, child = (lane.pull lane.inlet.child).2 →
        Lane.Called pull inlet ⟨⟨child, held, false, ended⟩, lane.pull⟩ := by
      rintro child held ended rfl
      exact ⟨first.own, fun before => absurd (before.symm.trans going) nofun,
        .inr ⟨going, by rw [first.own]⟩⟩
    have lawfulPull : AllLawful pull (inlet :: inlets) → Lawful (lane.pull lane.inlet.child).1 := by
      intro all
      rw [first.own]
      exact all inlet List.mem_cons_self going
    split
    next failed =>
      exact ⟨.cons (pulled _ _ _ rfl) others, fun all => (lawfulPull all).error failed⟩
    · exact ⟨.cons (pulled _ _ _ rfl) others, fun _ => lawful_ok _⟩
    · exact ⟨.cons (pulled _ _ _ rfl) later, rest⟩
    next block _ =>
    split
    · exact ⟨.cons (pulled _ _ _ rfl) others, fun _ => lawful_ok _⟩
    have checked := block.lawful_checkScanOrder scan
    split
    next failed => exact ⟨.cons (pulled _ _ _ rfl) others, fun _ => checked.error failed⟩
    · exact ⟨.cons (pulled _ _ _ rfl) later, rest⟩

theorem enterWindow_frame {window : Window} {n : MergeStage}
    (entered : m.enterWindow = some (window, n)) : n.closed = m.closed := by
  rw [enterWindow] at entered
  split at entered
  · cases entered
    rfl
  · obtain ⟨_, _, same⟩ := Option.map_eq_some_iff.1 entered
    cases same
    rfl

theorem closeWindow_called (m : MergeStage) (window : Window)
    (called : List.Forall₂ (Lane.Called pull) inlets lanes) :
    (m.closeWindow lanes window).2.1.closed = m.closed ∧
      List.Forall₂ (Lane.Called pull) inlets (m.closeWindow lanes window).2.2 ∧
      Lawful (m.closeWindow lanes window).1 := by
  have fed := lawful_feedAll (lanes.filterMap (·.inlet.held)) m.aggregators
  have skipped : List.Forall₂ (Lane.Called pull) inlets (lanes.map fun lane =>
      { lane with inlet := lane.inlet.skipPast window.range m.scan }) :=
    List.forall₂_map_right_iff.2 (called.imp fun _ _ called =>
      ⟨called.own, called.ended, called.child⟩)
  rw [closeWindow]
  split
  next failed => exact ⟨rfl, called, fed.error (congrArg Prod.fst failed)⟩
  next aggregators _ =>
  have appended := m.buffer.lawful_append window.outputTime (outputRow aggregators)
  dsimp only
  split
  next failed => exact ⟨rfl, skipped, appended.error failed⟩
  next => exact ⟨rfl, skipped, lawful_ok _⟩

theorem closeWindows_called (told : ∀ c, Lawful (hasNext c)) (windows : Nat) (m : MergeStage)
    (called : List.Forall₂ (Lane.Called pull) inlets lanes) :
    (m.closeWindows hasNext windows lanes).2.1.closed = m.closed ∧
      List.Forall₂ (Lane.Called pull) inlets (m.closeWindows hasNext windows lanes).2.2 ∧
      (AllLawful pull inlets → Lawful (m.closeWindows hasNext windows lanes).1) := by
  induction windows generalizing m lanes with
  | zero => exact ⟨rfl, called, fun _ => lawful_ok _⟩
  | succ windows ih =>
    obtain ⟨filled, lawful⟩ := prepare_called told m.scan called
    rw [closeWindows]
    split
    · exact ⟨rfl, called, fun _ => lawful_ok _⟩
    split
    next failed =>
      rw [failed] at filled lawful
      exact ⟨rfl, filled, fun all => (lawful all).error rfl⟩
    next waits =>
      rw [waits] at filled
      exact ⟨rfl, filled, fun _ => lawful_ok _⟩
    next ready =>
      rw [ready] at filled
      split
      · exact ⟨rfl, filled, fun _ => lawful_ok _⟩
      next window n entered =>
      obtain ⟨closed, used, appended⟩ := n.closeWindow_called window filled
      have same := enterWindow_frame entered
      split
      next failed =>
        rw [failed] at closed used appended
        exact ⟨closed.trans same, used, fun _ => appended.error rfl⟩
      next done =>
        rw [done] at closed used
        obtain ⟨last, others, outcome⟩ := ih _ used
        exact ⟨last.trans (closed.trans same), others, outcome⟩

/-- A call leaves every child as it was or pulls it once, and a breach can only
come from the pull of a child that has not ended. -/
theorem next_called (told : ∀ c, Lawful (hasNext c)) (m : MergeStage) (running : m.closed = false)
    (called : List.Forall₂ (Lane.Called pull) inlets lanes) :
    (m.next hasNext lanes).2.1.closed = m.closed ∧
      List.Forall₂ (fun inlet after => (inlet.ended = true → after.ended = true) ∧
        (after.child = inlet.child ∨
          inlet.ended = false ∧ after.child = (pull inlet.child).2)) inlets
        (m.next hasNext lanes).2.2 ∧
      (AllLawful pull inlets → Lawful (m.next hasNext lanes).1) := by
  have free : List.Forall₂ (Lane.Called pull) inlets (lanes.map fun lane =>
      { lane with inlet := { lane.inlet with mayPull := true } }) :=
    List.forall₂_map_right_iff.2 (called.imp fun _ _ called =>
      ⟨called.own, called.ended, called.child⟩)
  obtain ⟨closed, used, lawful⟩ := closeWindows_called told
    (windowsLeft { m with buffer := m.buffer.clear }) { m with buffer := m.buffer.clear } free
  have after : ∀ {lanes : List (Lane σ)}, List.Forall₂ (Lane.Called pull) inlets lanes →
      List.Forall₂ (fun inlet after => (inlet.ended = true → after.ended = true) ∧
        (after.child = inlet.child ∨ inlet.ended = false ∧ after.child = (pull inlet.child).2))
        inlets (lanes.map (·.inlet)) := fun called =>
    List.forall₂_map_right_iff.2 (called.imp fun _ _ called => ⟨called.ended, called.child⟩)
  rw [next, if_neg (by simp [running])]
  dsimp only
  split
  next failed =>
    rw [failed] at closed used lawful
    exact ⟨closed, after used, fun all => (lawful all).error rfl⟩
  next n others done =>
    rw [done] at closed used
    have built := n.buffer.lawful_build
    rw [answer]
    split
    · exact ⟨closed, after used, fun _ => built.map _⟩
    · split
      · exact ⟨closed, after used, fun _ => lawful_ok _⟩
      · exact ⟨closed, after used, fun _ => lawful_ok _⟩

end MergeStage
end WindowFold
