import WindowFold.Proofs.WindowAnswers

/-! A window stage in a call. The child is pulled at most once, when the stage is in a
window that needs more rows and has none at hand; nothing changes before it gets more. -/
namespace WindowFold.WindowStage
variable {w v : WindowStage} {window : Window} {range : TimeRange}

/-- In a window that needs more rows, with none at hand. -/
structure Suspended (w : WindowStage) : Prop where
  active : w.active ≠ none
  unsettled : w.allSettled = false
  cached : w.cached = none
  going : w.inputEnded = false

theorem unsettled_of_feedCached (more : w.feedCached range = (.ok false, v)) :
    v.allSettled = false := by
  rw [feedCached] at more
  split at more
  · cases more
  next unsettled =>
  rw [Bool.not_eq_true] at unsettled
  split at more
  · cases more
    exact unsettled
  dsimp only at more
  split at more
  · cases more
    exact unsettled
  split at more
  · cases more
  · obtain ⟨done, rfl⟩ := Prod.mk.inj more
    exact (Bool.or_eq_false_iff.1 (Except.ok.inj done)).2

section
variable {σ : Type} {hasNext : σ → Except Failure Bool} {child : σ}

/-- The stage at the start of a call. -/
def anew (w : WindowStage) : WindowStage := { w with buffer := w.buffer.clear, mayPull := true }

@[simp] theorem todo_anew (w : WindowStage) : w.anew.todo = w.todo := rfl

theorem next_eq (running : w.closed = false) (pull : σ → Attempt σ Answer) :
    w.next hasNext pull child =
      match w.anew.closeWindows hasNext pull w.anew.windowsLeft child with
      | (.error e, v, c) => (.error e, v, c)
      | (.ok (), v, c) => (v.answer.1, v.answer.2, c) := by
  rw [next, if_neg (by simp [running])]
  rfl

/-- Pulls the child, and goes on with what it gives. -/
def pullOn (hasNext : σ → Except Failure Bool) (pull : σ → Attempt σ Answer) (w : WindowStage)
    (child : σ) (range : TimeRange) : Attempt (WindowStage × σ) Bool :=
  match pull child with
  | (.error e, child) => (.error e, w, child)
  | (.ok answer, child) =>
    match w.accept answer with
    | .error e => (.error e, w, child)
    | .ok w =>
      match w.advance hasNext child range with
      | (.error e, w) => (.error e, w, child)
      | (.ok need, w) => (.ok (need = .nothing), w, child)

theorem resolve_eq (hasNext : σ → Except Failure Bool) (pull : σ → Attempt σ Answer)
    (w : WindowStage) (child : σ) (range : TimeRange) : w.resolve hasNext pull child range =
      match w.advance hasNext child range with
      | (.error e, u) => (.error e, u, child)
      | (.ok .nothing, u) => (.ok true, u, child)
      | (.ok .input, u) =>
        if !u.mayPull then (.ok false, u, child)
        else { u with mayPull := false }.pullOn hasNext pull child range := rfl

theorem mayPull_advance (hasNext : σ → Except Failure Bool) (w : WindowStage) (child : σ)
    (range : TimeRange) : (w.advance hasNext child range).2.mayPull = w.mayPull := by
  obtain ⟨_, _, frame⟩ := w.advance_frame hasNext child range
  rw [frame]

theorem mayPull_enterWindow (entered : w.enterWindow = some (window, v)) :
    v.mayPull = w.mayPull := by
  rw [enterWindow] at entered
  split at entered
  · cases entered
    rfl
  · obtain ⟨_, _, same⟩ := Option.map_eq_some_iff.1 entered
    cases same
    rfl

theorem suspended_of_input (active : w.active = some window)
    (input : w.advance hasNext child range = (.ok .input, v)) : v.Suspended := by
  have stays := w.stays_advance hasNext child range
  have going := w.inputEnded_advance hasNext child range
  rw [input] at stays going
  rw [advance] at input
  split at input
  · cases input
  · cases input
  next u more =>
  dsimp only at input
  split at input
  · cases input
  next open_ =>
  split at input
  · cases input
  · cases input
  · cases input
    refine ⟨?_, unsettled_of_feedCached (v := u) more, rfl, by simpa using open_⟩
    rw [stays.active, active]
    exact Option.some_ne_none window

/-- Nothing changes while a suspended stage has not got more. -/
theorem Suspended.advance_eq (suspended : w.Suspended) (child : σ) (range : TimeRange) :
    w.advance hasNext child range =
      ((hasNext child).map fun more => if more then .input else .nothing, w) := by
  have fed : w.feedCached range = (.ok false, w) := by
    rw [feedCached, if_neg (by simp [suspended.unsettled]), suspended.cached]
  have same : { w with cached := none } = w := by rw [← suspended.cached]
  rw [advance, fed]
  dsimp only
  rw [if_neg (by simp [suspended.going]), same]
  rcases hasNext child with e | _ | _ <;> rfl

end

end WindowFold.WindowStage
