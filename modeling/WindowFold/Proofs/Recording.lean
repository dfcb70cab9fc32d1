import WindowFold.Proofs.Suspension

/-! The moments at which a window stage pulls its child. In a call there is at most
one: the stage is in a window that needs more rows, and the child tells that more
comes. An operator that keeps count of its pulls counts the same ones. -/
namespace WindowFold

/-- An operator that keeps the states in which it was pulled. -/
structure Recorded (σ : Type) where
  operator : σ
  pulled : List σ

namespace Recorded
variable {σ : Type} [Operator σ]

def start (s : σ) : Recorded σ := ⟨s, []⟩

instance : Operator (Recorded σ) where
  schema r := Operator.schema r.operator
  hasNext r := Operator.hasNext r.operator
  readiness r := (Operator.readiness r.operator).map id fun s => { r with operator := s }
  next r := (Operator.next r.operator).map id fun s => ⟨s, r.pulled ++ [r.operator]⟩
  close r := (Operator.close r.operator).map id fun s => { r with operator := s }
  poll ticket r := (Operator.poll ticket r.operator).map id fun s => { r with operator := s }
  isComplete ticket r := Operator.isComplete ticket r.operator
  release ticket r := { r with operator := Operator.release ticket r.operator }
  work r := Operator.work r.operator

theorem pulled_next (r : Recorded σ) :
    (Operator.next r).2.pulled.length = r.pulled.length + 1 := by
  change (r.pulled ++ [r.operator]).length = _
  rw [List.length_append, List.length_singleton]

end Recorded

namespace WindowStage
variable {σ α : Type} {hasNext : σ → Except Failure Bool} {pull other : σ → Attempt σ Answer}
  {w v : WindowStage} {child c : σ} {window : Window} {range : TimeRange}

/-- Where the work on a window pulls the child: the stage once it has used the rows
at hand, and the child. -/
def pullFor (hasNext : σ → Except Failure Bool) (w : WindowStage) (child : σ) (range : TimeRange) :
    List (WindowStage × σ) :=
  match w.advance hasNext child range with
  | (.ok .input, u) => if u.mayPull then [((w.feedCached range).2, child)] else []
  | _ => []

def pullsWithin (hasNext : σ → Except Failure Bool) (pull : σ → Attempt σ Answer) :
    (windows : Nat) → WindowStage → σ → List (WindowStage × σ)
  | 0, _, _ => []
  | windows + 1, w, child =>
    if w.buffer.isFull then []
    else
      match w.enterWindow with
      | none => []
      | some (window, w) =>
        w.pullFor hasNext child window.range ++
          match w.resolve hasNext pull child window.range with
          | (.ok true, w, child) =>
            match w.buffer.append window.outputTime (outputRow w.aggregators) with
            | .error _ => []
            | .ok buffer =>
              pullsWithin hasNext pull windows { w with active := none, buffer := buffer } child
          | _ => []

/-- The moments of a call at which the child is pulled. -/
def pulls (hasNext : σ → Except Failure Bool) (pull : σ → Attempt σ Answer) (w : WindowStage)
    (child : σ) : List (WindowStage × σ) :=
  if w.closed then [] else w.anew.pullsWithin hasNext pull w.anew.windowsLeft child

/-- How the child fares: it is left alone, or it is pulled once. It has not ended then,
and it tells that more comes. -/
inductive Pulling (hasNext : σ → Except Failure Bool) (pull : σ → Attempt σ Answer)
    (w : WindowStage) (child : σ) : List (WindowStage × σ) → Except Failure α → WindowStage → σ →
      Prop where
  | none {outcome : Except Failure α} {v : WindowStage} (may : v.mayPull = w.mayPull)
      (ended : v.inputEnded = w.inputEnded) : Pulling hasNext pull w child [] outcome v child
  | once {u v : WindowStage} {outcome : Except Failure α} (may : w.mayPull = true)
      (going : w.inputEnded = false) (more : hasNext child = .ok true) (spent : v.mayPull = false)
      (failed : ∀ e, (pull child).1 = .error e → outcome = .error e)
      (ended : v.inputEnded = true ↔ (pull child).1 = .ok .endOfStream) :
      Pulling hasNext pull w child [(u, child)] outcome v (pull child).2

theorem inputEnded_accept {answer : Answer} (going : w.inputEnded = false)
    (taken : w.accept answer = .ok v) : v.inputEnded = true ↔ answer = .endOfStream := by
  by_cases ended : answer = .endOfStream
  · subst ended
    cases taken
    simp
  · simp [goesOn_accept ended taken, going, ended]

theorem pullOn_spec (going : w.inputEnded = false) (hasNext : σ → Except Failure Bool)
    (pull : σ → Attempt σ Answer) (child : σ) (range : TimeRange) :
    (w.pullOn hasNext pull child range).2.2 = (pull child).2 ∧
      (w.pullOn hasNext pull child range).2.1.mayPull = w.mayPull ∧
      (∀ e, (pull child).1 = .error e → (w.pullOn hasNext pull child range).1 = .error e) ∧
      ((w.pullOn hasNext pull child range).2.1.inputEnded = true ↔
        (pull child).1 = .ok .endOfStream) := by
  rw [pullOn]
  rcases pull child with ⟨e | answer, d⟩
  · simp [going]
  dsimp only
  rcases taken : w.accept answer with e | x
  · have unended : answer ≠ .endOfStream := by
      rintro rfl
      cases taken
    simp [going, unended]
  have may : x.mayPull = w.mayPull := by
    obtain ⟨_, _, rfl, _⟩ := accept_frame taken
    rfl
  have still := (x.mayPull_advance hasNext d range).trans may
  have ended := inputEnded_accept going taken
  rw [← x.inputEnded_advance hasNext d range] at ended
  dsimp only
  rcases advanced : x.advance hasNext d range with ⟨e | need, y⟩
  all_goals
    rw [advanced] at still ended
    exact ⟨rfl, still, nofun, by simpa using ended⟩

theorem of_input (input : w.advance hasNext child range = (.ok .input, v)) :
    ∃ u, w.feedCached range = (.ok false, u) ∧ v = { u with cached := none } ∧
      u.inputEnded = false ∧ hasNext child = .ok true := by
  have more := told_of_input (congrArg Prod.fst input)
  rw [advance] at input
  rcases fed : w.feedCached range with ⟨e | _ | _, u⟩
  all_goals rw [fed] at input
  · cases input
  · dsimp only at input
    split at input
    · cases input
    next going =>
    rw [more] at input
    cases input
    exact ⟨u, rfl, rfl, by simpa using going, more⟩
  · cases input

/-- In a window the child is left alone or pulled once. The stage waits only if the
child is pulled, or was pulled before. -/
theorem resolve_pulling (hasNext : σ → Except Failure Bool) (pull : σ → Attempt σ Answer)
    (w : WindowStage) (child : σ) (range : TimeRange) :
    Pulling hasNext pull w child (w.pullFor hasNext child range)
        (w.resolve hasNext pull child range).1 (w.resolve hasNext pull child range).2.1
        (w.resolve hasNext pull child range).2.2 ∧
      ((w.resolve hasNext pull child range).1 = .ok false → w.mayPull = true →
        w.pullFor hasNext child range ≠ []) := by
  have may := w.mayPull_advance hasNext child range
  have ended := w.inputEnded_advance hasNext child range
  rw [resolve_eq, pullFor]
  rcases advanced : w.advance hasNext child range with ⟨e | _ | _, v⟩
  all_goals rw [advanced] at may ended
  · exact ⟨.none may ended, nofun⟩
  · exact ⟨.none may ended, nofun⟩
  obtain ⟨u, fed, rfl, going, more⟩ := of_input advanced
  dsimp only at may ended ⊢
  by_cases permitted : u.mayPull = true
  · obtain ⟨after, spent, failed, last⟩ := pullOn_spec
      (w := { u with cached := none, mayPull := false }) going hasNext pull child range
    simp only [permitted, Bool.not_true, Bool.false_eq_true, if_true, if_false, fed]
    refine ⟨?_, fun _ _ => List.cons_ne_nil _ _⟩
    rw [after]
    exact .once (may.symm.trans permitted) (ended.symm.trans going) more spent failed last
  · simp only [Bool.not_eq_true] at permitted
    simp only [permitted, Bool.not_false, if_true, if_false, Bool.false_eq_true]
    refine ⟨.none (permitted.symm.trans may) ended, fun _ held => ?_⟩
    exact absurd (permitted.symm.trans (may.trans held)) Bool.false_ne_true

namespace Pulling
variable {β : Type} {outcome : Except Failure α} {other : Except Failure β}
  {pulled more : List (WindowStage × σ)} {u x : WindowStage} {d : σ}

/-- The stage at the end of the part differs in nothing that pulls. -/
theorem goOn (first : Pulling hasNext pull w child pulled outcome v c)
    (may : x.mayPull = v.mayPull) (ended : x.inputEnded = v.inputEnded)
    (failed : ∀ e, outcome = .error e → other = .error e) :
    Pulling hasNext pull w child pulled other x c := by
  cases first with
  | none same still => exact .none (may.trans same) (ended.trans still)
  | once permitted going more spent fails last =>
    refine .once permitted going more (may.trans spent) (fun e broken => ?_) ?_
    · exact failed e (fails e broken)
    · rw [ended]
      exact last

/-- The stage at the start of the part differs in nothing that pulls. -/
theorem start (first : Pulling hasNext pull u child pulled outcome v c)
    (may : u.mayPull = w.mayPull) (ended : u.inputEnded = w.inputEnded) :
    Pulling hasNext pull w child pulled outcome v c := by
  cases first with
  | none same still => exact .none (same.trans may) (still.trans ended)
  | once permitted going more spent fails last =>
    exact .once (may.symm.trans permitted) (ended.symm.trans going) more spent fails last

theorem append {a : α} (first : Pulling hasNext pull w child pulled (.ok a : Except Failure α) v c)
    (later : Pulling hasNext pull v c more other x d) :
    Pulling hasNext pull w child (pulled ++ more) other x d := by
  cases first with
  | none same still => exact later.start same still
  | once permitted going told spent fails last =>
    cases later with
    | none same still =>
      refine .once permitted going told (same.trans spent) (fun e broken => ?_) ?_
      · cases fails e broken
      · rw [still]
        exact last
    | once again => exact absurd (again.symm.trans spent) nofun

theorem unspent (pulling : Pulling hasNext pull w child pulled outcome v c)
    (may : v.mayPull = true) : w.mayPull = true ∧ c = child := by
  cases pulling with
  | none unused _ => exact ⟨unused.symm.trans may, rfl⟩
  | once _ _ _ spent => exact absurd (spent.symm.trans may) nofun

theorem mayPull_of_mem (pulling : Pulling hasNext pull w child pulled outcome v c)
    {p : WindowStage × σ} (member : p ∈ pulled) : w.mayPull = true := by
  cases pulling with
  | none => cases member
  | once may => exact may

end Pulling

theorem closeWindows_pulling (hasNext : σ → Except Failure Bool) (pull : σ → Attempt σ Answer)
    (windows : Nat) (w : WindowStage) (child : σ) :
    Pulling hasNext pull w child (w.pullsWithin hasNext pull windows child)
      (w.closeWindows hasNext pull windows child).1 (w.closeWindows hasNext pull windows child).2.1
      (w.closeWindows hasNext pull windows child).2.2 := by
  induction windows generalizing w child with
  | zero => exact .none rfl rfl
  | succ windows ih =>
    rw [closeWindows, pullsWithin]
    split
    · exact .none rfl rfl
    rcases entered : w.enterWindow with _ | ⟨window, u⟩
    · exact .none rfl rfl
    obtain ⟨_, ended⟩ := enterWindow_frame entered
    obtain ⟨resolved, _⟩ := u.resolve_pulling hasNext pull child window.range
    have resolved := resolved.start (mayPull_enterWindow entered) ended
    dsimp only
    rcases done : u.resolve hasNext pull child window.range with ⟨e | _ | _, x, d⟩
    all_goals rw [done] at resolved
    · rw [List.append_nil]
      exact resolved.goOn rfl rfl fun _ failed => congrArg Except.error (Except.error.inj failed)
    · rw [List.append_nil]
      exact resolved.goOn rfl rfl (by simp)
    · dsimp only
      rcases x.buffer.append window.outputTime (outputRow x.aggregators) with e | buffer
      · rw [List.append_nil]
        exact resolved.goOn rfl rfl (by simp)
      · exact resolved.append ((ih { x with active := none, buffer := buffer } d).start rfl rfl)

/-- The answer to a call, once it has closed what windows it can. -/
def answered : Attempt (WindowStage × σ) Unit → Attempt (WindowStage × σ) Answer
  | (.error e, w, child) => (.error e, w, child)
  | (.ok (), w, child) => (w.answer.1, w.answer.2, child)

theorem next_answered (running : w.closed = false) (hasNext : σ → Except Failure Bool)
    (pull : σ → Attempt σ Answer) (child : σ) : w.next hasNext pull child =
      answered (w.anew.closeWindows hasNext pull w.anew.windowsLeft child) := by
  rw [next_eq running]
  rcases w.anew.closeWindows hasNext pull w.anew.windowsLeft child with ⟨_ | _, _, _⟩ <;> rfl

theorem next_pulling (running : w.closed = false) (hasNext : σ → Except Failure Bool)
    (pull : σ → Attempt σ Answer) (child : σ) :
    Pulling hasNext pull w.anew child (w.pulls hasNext pull child) (w.next hasNext pull child).1
      (w.next hasNext pull child).2.1 (w.next hasNext pull child).2.2 := by
  have closing := closeWindows_pulling hasNext pull w.anew.windowsLeft w.anew child
  rw [next_eq running, pulls, if_neg (by simp [running])]
  rcases closed : w.anew.closeWindows hasNext pull w.anew.windowsLeft child with ⟨e | _, v, c⟩
  all_goals rw [closed] at closing
  · exact closing.goOn rfl rfl fun _ failed => congrArg Except.error (Except.error.inj failed)
  · dsimp only
    rw [answer_eq]
    exact closing.goOn rfl rfl nofun

theorem resolve_congr (w : WindowStage) (range : TimeRange)
    (same : w.mayPull = true → pull child = other child) :
    w.resolve hasNext pull child range = w.resolve hasNext other child range := by
  have may := w.mayPull_advance hasNext child range
  rw [resolve_eq, resolve_eq]
  generalize w.advance hasNext child range = advanced at may ⊢
  obtain ⟨e | _ | _, v⟩ := advanced
  · rfl
  · rfl
  dsimp only at may ⊢
  cases permitted : v.mayPull with
  | false => rfl
  | true =>
    rw [if_neg (by simp), if_neg (by simp), pullOn, pullOn, same (may.symm.trans permitted)]

theorem closeWindows_congr (windows : Nat) (w : WindowStage) (child : σ)
    (same : w.mayPull = true → pull child = other child) :
    w.closeWindows hasNext pull windows child = w.closeWindows hasNext other windows child := by
  induction windows generalizing w child with
  | zero => rfl
  | succ windows ih =>
    rw [closeWindows, closeWindows]
    split
    · rfl
    rcases entered : w.enterWindow with _ | ⟨window, u⟩
    · rfl
    have same : u.mayPull = true → pull child = other child := mayPull_enterWindow entered ▸ same
    obtain ⟨resolved, _⟩ := u.resolve_pulling hasNext other child window.range
    dsimp only
    rw [resolve_congr u window.range same]
    rcases done : u.resolve hasNext other child window.range with ⟨e | _ | _, x, d⟩
    · rfl
    · rfl
    · dsimp only
      rcases x.buffer.append window.outputTime (outputRow x.aggregators) with e | buffer
      · rfl
      refine ih { x with active := none, buffer := buffer } d fun may => ?_
      rw [done] at resolved
      obtain ⟨before, rfl⟩ := resolved.unspent may
      exact same before

theorem next_congr (w : WindowStage) (child : σ) (same : pull child = other child) :
    w.next hasNext pull child = w.next hasNext other child := by
  by_cases closed : w.closed = true
  · rw [next, next, if_pos closed, if_pos closed]
  · rw [Bool.not_eq_true] at closed
    rw [next_eq closed, next_eq closed, closeWindows_congr _ _ _ fun _ => same]

end WindowStage

namespace Tree
variable {σ : Type} [Operator σ]

/-- A stage pulls its child for what the child answers then. -/
theorem next_window_live (w : WindowStage) (child : Tree σ) :
    (window w child).next =
      (w.next hasNext next child).map id fun after => .window after.1 after.2 := by
  have live : w.next hasNext (fun _ => child.next) child = w.next hasNext next child :=
    WindowStage.next_congr w child rfl
  rw [next, live]
  rfl

end Tree

namespace Recorded
variable {σ : Type} [Operator σ]

/-- The operator that is counted, where it is all there is. -/
def state : Tree (Recorded σ) → List σ
  | .source r => [r.operator]
  | _ => []

end Recorded
end WindowFold
