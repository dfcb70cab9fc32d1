import WindowFold.Proofs.Calls
import WindowFold.Proofs.Playing
import WindowFold.Proofs.WindowRun

/-! What a window stage answers, whatever its aggregations come to. Its rows are
those of its windows, one for each, and as long as nothing fails its answers
depend on those of its child alone. -/
namespace WindowFold

namespace Block
variable {schema : Schema} {columns : List Column}

theorem types_of_fits {rows : Nat} (fit : fits schema columns rows = true) :
    columns.map (·.type) = schema.types := by
  simp only [fits, Bool.and_eq_true, decide_eq_true_eq, List.all_eq_true] at fit
  refine (map_eq_map_iff.2 (List.forall₂_iff_zip.2 ⟨fit.1, fun {f c} member => ?_⟩)).symm
  exact (fit.2 (f, c) member).1.1

theorem of_ofColumns {times : List Timestamp} {made : List Column} {block : Block}
    (built : ofColumns schema (Column.ofTimes times :: made) none = .ok block) :
    block.times = times ∧ block.schema.types = schema.types := by
  simp only [ofColumns] at built
  split at built
  · contradiction
  next fit =>
  cases schema with
  | nil => contradiction
  | cons field fields =>
    have cells : (times.map some).filterMap id = times := by simp [List.filterMap_map]
    simp only [Column.ofTimes, cells, List.length_map, ne_eq, not_true_eq_false, if_false] at built
    split at built
    · cases built
      rw [Bool.not_eq_true, Bool.or_eq_false_iff, Bool.not_eq_false'] at fit
      have types := types_of_fits fit.2
      refine ⟨rfl, types ▸ ?_⟩
      have width : made.length ≤ fields.length := by
        have := congrArg List.length types
        simp only [List.map_cons, List.length_cons, List.length_map, Schema.types] at this
        omega
      conv_rhs => rw [← List.map_snd_zip width]
      simp [Schema.types, schema, Series.field, Column.ofTimes, Function.comp_def]
    · contradiction

end Block

namespace RowBuffer
variable {b c : RowBuffer}

theorem of_build {block : Block} (built : b.build = (.ok block, c)) :
    block.times = b.times ∧ block.schema.types = b.schema.types ∧ c.schema = b.schema := by
  simp only [build] at built
  split at built
  · cases built
  next made _ =>
    obtain ⟨same, rfl⟩ := Prod.mk.inj built
    obtain ⟨times, types⟩ := Block.of_ofColumns same
    exact ⟨times, types, rfl⟩

theorem of_append {time : Timestamp} {values : List Scalar}
    (appended : b.append time values = .ok c) :
    c.times = b.times ++ [time] ∧ c.schema = b.schema := by
  unfold RowBuffer.append at appended
  split at appended
  · contradiction
  · cases appended
    exact ⟨rfl, rfl⟩

end RowBuffer

namespace WindowStage
variable {σ : Type} {hasNext : σ → Except Failure Bool} {pull : σ → Attempt σ Answer}
  {w v : WindowStage} {child after : σ} {window : Window}

/-- The windows left are the same, and the rows that were made are. -/
structure Stays (w v : WindowStage) : Prop where
  cursor : v.cursor = w.cursor
  active : v.active = w.active
  buffer : v.buffer = w.buffer
  closed : v.closed = w.closed

theorem Stays.todo (stays : w.Stays v) : v.todo = w.todo := by
  rw [WindowStage.todo, WindowStage.todo, stays.active, stays.cursor]

theorem Stays.trans {u : WindowStage} (first : w.Stays u) (later : u.Stays v) : w.Stays v where
  cursor := later.cursor.trans first.cursor
  active := later.active.trans first.active
  buffer := later.buffer.trans first.buffer
  closed := later.closed.trans first.closed

theorem stays_advance (hasNext : σ → Except Failure Bool) (w : WindowStage) (child : σ)
    (range : TimeRange) : w.Stays (w.advance hasNext child range).2 := by
  obtain ⟨_, _, frame⟩ := w.advance_frame hasNext child range
  rw [frame]
  exact ⟨rfl, rfl, rfl, rfl⟩

theorem told_of_input {range : TimeRange}
    (input : (w.advance hasNext child range).1 = .ok .input) : hasNext child = .ok true := by
  rw [advance] at input
  split at input
  · cases input
  · cases input
  dsimp only at input
  split at input
  · cases input
  split at input
  · cases input
  · cases input
  next more => exact more

/-- What the work on a window leaves: the rows that were there are used, and if the
child was pulled and its answer accepted, those of the answer are used too. -/
theorem resolve_cases (hasNext : σ → Except Failure Bool) (pull : σ → Attempt σ Answer)
    (w : WindowStage) (child : σ) (range : TimeRange) :
    (w.resolve hasNext pull child range).2.1 = (w.advance hasNext child range).2 ∨
      (w.resolve hasNext pull child range).2.1 =
        { (w.advance hasNext child range).2 with mayPull := false } ∨
      ∃ answer d x, hasNext child = .ok true ∧ pull child = (.ok answer, d) ∧
        { (w.advance hasNext child range).2 with mayPull := false }.accept answer = .ok x ∧
        (w.resolve hasNext pull child range).2.1 = (x.advance hasNext d range).2 := by
  rw [resolve]
  rcases advanced : w.advance hasNext child range with ⟨e | _ | _, u⟩
  · exact .inl rfl
  · exact .inl rfl
  · have more := told_of_input (congrArg Prod.fst advanced)
    dsimp only
    split
    · exact .inl rfl
    split
    · exact .inr (.inl rfl)
    next answer d pulled =>
    split
    · exact .inr (.inl rfl)
    next x taken =>
    refine .inr (.inr ⟨answer, d, x, more, pulled, taken, ?_⟩)
    rcases x.advance hasNext d range with ⟨e | need, y⟩ <;> rfl

theorem stays_resolve (hasNext : σ → Except Failure Bool) (pull : σ → Attempt σ Answer)
    (w : WindowStage) (child : σ) (range : TimeRange) :
    w.Stays (w.resolve hasNext pull child range).2.1 := by
  have first := w.stays_advance hasNext child range
  rcases w.resolve_cases hasNext pull child range with
    same | same | ⟨answer, d, x, _, _, taken, same⟩
  · rw [same]
    exact first
  · rw [same]
    exact { first with }
  · have accepted : w.Stays x := by
      obtain ⟨_, _, rfl, _⟩ := accept_frame taken
      exact { first with }
    rw [same]
    exact accepted.trans (x.stays_advance hasNext d range)

theorem of_enterWindow (entered : w.enterWindow = some (window, v)) :
    w.todo = window :: v.cursor.left ∧ v.active = some window ∧ v.buffer = w.buffer ∧
      v.closed = w.closed := by
  rw [enterWindow] at entered
  cases active : w.active with
  | some current =>
    rw [active] at entered
    cases entered
    exact ⟨by rw [todo, active]; rfl, active, rfl, rfl⟩
  | none =>
    rw [active] at entered
    obtain ⟨⟨first, cursor⟩, met, same⟩ := Option.map_eq_some_iff.1 entered
    cases same
    exact ⟨by rw [todo, active, (Cursor.of_next? met).1]; rfl, rfl, rfl, rfl⟩

/-- Each part of a call keeps the property, however the part ends. -/
structure Lasts (hasNext : σ → Except Failure Bool) (pull : σ → Attempt σ Answer)
    (P : WindowStage → Prop) : Prop where
  enter : ∀ {w v : WindowStage} {window : Window}, w.enterWindow = some (window, v) → P w → P v
  resolve : ∀ (w : WindowStage) (child : σ) (range : TimeRange), P w →
    P (w.resolve hasNext pull child range).2.1
  leave : ∀ {w : WindowStage}, P w → P { w with active := none }
  append : ∀ {w : WindowStage} {time : Timestamp} {values : List Scalar} {buffer : RowBuffer},
    w.buffer.append time values = .ok buffer → P w → P { w with buffer := buffer }
  start : ∀ {w : WindowStage}, P w → P { w with buffer := w.buffer.clear, mayPull := true }
  answer : ∀ {w : WindowStage} (more : Bool), P w →
    P { w with buffer := (w.buffer.answer more).2 }

section
variable {P : WindowStage → Prop}

theorem Lasts.closeWindows (lasts : Lasts hasNext pull P) (windows : Nat) (holds : P w)
    (child : σ) :
    P (w.closeWindows hasNext pull windows child).2.1 := by
  induction windows generalizing w child with
  | zero => exact holds
  | succ windows ih =>
    rw [WindowStage.closeWindows]
    split
    · exact holds
    split
    · exact holds
    next window u entered =>
    have resolved := lasts.resolve u child window.range (lasts.enter entered holds)
    split
    next failed =>
      rw [failed] at resolved
      exact resolved
    next waits =>
      rw [waits] at resolved
      exact resolved
    next x d done =>
      rw [done] at resolved
      have left : P { x with active := none } := lasts.leave resolved
      dsimp only
      split
      · exact left
      next added => exact ih (lasts.append (w := { x with active := none }) added left) d

theorem Lasts.next (lasts : Lasts hasNext pull P) (holds : P w) (child : σ) :
    P (w.next hasNext pull child).2.1 := by
  rw [WindowStage.next]
  split
  · exact holds
  have closes := lasts.closeWindows
    (windowsLeft { w with buffer := w.buffer.clear, mayPull := true }) (lasts.start holds) child
  dsimp only
  split
  next failed =>
    rw [failed] at closes
    exact closes
  next x _ done =>
    rw [done] at closes
    rw [answer_eq]
    exact lasts.answer x.hasNext closes

/-- What lasts of a buffer lasts of that of a stage. -/
theorem lasts_buffer {Q : RowBuffer → Prop} (lasts : RowBuffer.Lasts Q) :
    Lasts hasNext pull fun w => Q w.buffer where
  enter entered holds := (of_enterWindow entered).2.2.1 ▸ holds
  resolve w child range holds := (w.stays_resolve hasNext pull child range).buffer ▸ holds
  leave := id
  append added := lasts.append added
  start := lasts.clear
  answer := lasts.answer

end

/-- Every window that a call closes adds a row with its output time. -/
theorem of_closeWindows {windows : Nat}
    (closing : w.closeWindows hasNext pull windows child = (.ok (), v, after)) :
    ∃ closed, w.todo = closed ++ v.todo ∧
      v.buffer.times = w.buffer.times ++ closed.map (·.outputTime) ∧
      v.buffer.schema = w.buffer.schema ∧ v.closed = w.closed := by
  induction windows generalizing w child with
  | zero =>
    cases closing
    exact ⟨[], rfl, by simp, rfl, rfl⟩
  | succ windows ih =>
    rw [closeWindows] at closing
    split at closing
    · cases closing
      exact ⟨[], rfl, by simp, rfl, rfl⟩
    split at closing
    · cases closing
      exact ⟨[], rfl, by simp, rfl, rfl⟩
    next window u entered =>
    obtain ⟨todo, active, buffer, closed⟩ := of_enterWindow entered
    have entering : u.todo = w.todo := by
      rw [WindowStage.todo, active, todo]
      rfl
    have stays := u.stays_resolve hasNext pull child window.range
    split at closing
    · cases closing
    next waits =>
      rw [waits] at stays
      cases closing
      refine ⟨[], (stays.todo.trans entering).symm, ?_, ?_, stays.closed.trans closed⟩
      · rw [stays.buffer, buffer, List.map_nil, List.append_nil]
      · rw [stays.buffer, buffer]
    next x d done =>
      rw [done] at stays
      dsimp only at stays closing
      split at closing
      · cases closing
      next filled appended =>
      obtain ⟨times, schema⟩ := RowBuffer.of_append appended
      obtain ⟨others, rest, later, sort, running⟩ := ih closing
      rw [stays.buffer, buffer] at times schema
      refine ⟨window :: others, ?_, ?_, sort.trans schema,
        running.trans (stays.closed.trans closed)⟩
      · rw [todo, List.cons_append, ← rest, WindowStage.todo, stays.cursor]
        rfl
      · rw [later, times, List.append_assoc]
        rfl

/-- The rows of an answer are those of the next windows. -/
theorem of_next {answer : Answer} (given : w.next hasNext pull child = (.ok answer, v, after)) :
    w.todo.map (·.outputTime) = answer.rows.map (·.time) ++ v.todo.map (·.outputTime) ∧
      v.buffer.schema = w.buffer.schema ∧
      (∀ block, answer = .block block →
        block.schema.types = w.buffer.schema.types ∧ block.rows ≠ []) ∧
      (answer = .endOfStream → v.todo = []) := by
  rw [next] at given
  split at given
  · cases given
  next running =>
  dsimp only at given
  split at given
  · cases given
  next x d closing =>
  obtain ⟨closed, todo, times, schema, same⟩ := of_closeWindows closing
  have todo : w.todo = closed ++ x.todo := todo
  have times : x.buffer.times = closed.map (·.outputTime) := times
  rw [WindowStage.answer] at given
  split at given
  next some =>
    cases built : x.buffer.build with
    | mk outcome buffer =>
    rw [built] at given
    cases outcome with
    | error e => cases given
    | ok block =>
      cases given
      obtain ⟨own, types, kept⟩ := RowBuffer.of_build built
      refine ⟨?_, kept.trans schema, ?_, by simp⟩
      · rw [todo, List.map_append, Answer.rows, Block.map_time_rows, own, times]
        rfl
      · rintro _ ⟨⟩
        refine ⟨types.trans (congrArg Schema.types schema), ?_⟩
        intro none
        have empty : block.times = [] := by rw [← Block.map_time_rows, none]; rfl
        rw [own] at empty
        simp [RowBuffer.isEmpty, empty] at some
  next empty =>
    have none : closed = [] := by
      rw [Bool.not_eq_true, Bool.not_eq_false', RowBuffer.isEmpty, times, List.isEmpty_iff,
        List.map_eq_nil_iff] at empty
      exact empty
    rw [none, List.nil_append] at todo
    split at given
    · cases given
      exact ⟨by rw [todo]; rfl, schema, by simp, by simp⟩
    next last =>
      cases given
      have ended : x.todo = [] := by
        rw [hasNext_eq x (same.trans (by simpa using running)), Bool.not_eq_true,
          Bool.not_eq_false', List.isEmpty_iff] at last
        exact last
      exact ⟨by rw [todo]; rfl, schema, by simp, fun _ => ended⟩

theorem next_nil (running : w.closed = false) (none : w.todo = []) :
    (w.next hasNext pull child).1 = .ok .endOfStream := by
  let u : WindowStage := { w with buffer := w.buffer.clear, mayPull := true }
  have windows : u.windowsLeft = 0 := by
    rw [windowsLeft_eq]
    exact congrArg List.length none
  have last : u.hasNext = false := by
    rw [hasNext_eq u running, Bool.not_eq_false', List.isEmpty_iff]
    exact none
  have ended : u.answer = (.ok .endOfStream, u) := by
    rw [answer, last]
    rfl
  rw [next, if_neg (by simp [running])]
  simp only
  rw [show windowsLeft { w with buffer := w.buffer.clear, mayPull := true } = 0 from windows,
    closeWindows]
  simp only
  rw [show WindowStage.answer { w with buffer := w.buffer.clear, mayPull := true } = _ from ended]

section
variable {τ : Type} {f : τ → σ} {told : τ → Except Failure Bool} {given : τ → Attempt τ Answer}

/-- A child is known to a call by what it tells and by what it answers. -/
theorem resolve_map (same : ∀ t, hasNext (f t) = told t)
    (pulled : ∀ t, told t = .ok true → pull (f t) = (given t).map id f) (w : WindowStage) (t : τ)
    (range : TimeRange) : w.resolve hasNext pull (f t) range =
      (w.resolve told given t range).map id (Prod.map id f) := by
  have alike : ∀ (v : WindowStage) t, v.advance hasNext (f t) range = v.advance told t range :=
    fun v t => by simp only [advance, same]
  rw [resolve, resolve, alike]
  rcases advanced : w.advance told t range with ⟨e | _ | _, v⟩
  · rfl
  · rfl
  · have more := told_of_input (congrArg Prod.fst advanced)
    by_cases may : v.mayPull = true
    · simp only [may, Bool.not_true, Bool.false_eq_true, if_false, pulled t more]
      rcases given t with ⟨e | answer, u⟩
      · rfl
      · simp only [Prod.map, id]
        cases { v with mayPull := false }.accept answer with
        | error e => rfl
        | ok x =>
          simp only [alike]
          rcases x.advance told u range with ⟨e | need, y⟩ <;> rfl
    · simp only [may, Bool.not_false, if_true]
      rfl

theorem closeWindows_map (same : ∀ t, hasNext (f t) = told t)
    (pulled : ∀ t, told t = .ok true → pull (f t) = (given t).map id f) (windows : Nat)
    (w : WindowStage) (t : τ) : w.closeWindows hasNext pull windows (f t) =
      (w.closeWindows told given windows t).map id (Prod.map id f) := by
  induction windows generalizing w t with
  | zero => rfl
  | succ windows ih =>
    rw [closeWindows, closeWindows]
    by_cases full : w.buffer.isFull = true
    · simp only [if_pos full]
      rfl
    simp only [if_neg full]
    rcases w.enterWindow with _ | ⟨window, u⟩
    · rfl
    simp only [resolve_map same pulled]
    rcases u.resolve told given t window.range with ⟨e | _ | _, x, d⟩
    · rfl
    · rfl
    · simp only [Prod.map, id]
      rcases x.buffer.append window.outputTime (outputRow x.aggregators) with e | buffer
      · rfl
      · exact ih _ d

theorem next_map (same : ∀ t, hasNext (f t) = told t)
    (pulled : ∀ t, told t = .ok true → pull (f t) = (given t).map id f) (w : WindowStage) (t : τ) :
    w.next hasNext pull (f t) = (w.next told given t).map id (Prod.map id f) := by
  rw [next, next]
  by_cases closed : w.closed = true
  · simp only [if_pos closed]
    rfl
  · simp only [if_neg closed, closeWindows_map same pulled]
    rcases closeWindows told given _ _ t with ⟨e | _, v, d⟩ <;> rfl

end

theorem inputEnded_advance (hasNext : σ → Except Failure Bool) (w : WindowStage) (child : σ)
    (range : TimeRange) : (w.advance hasNext child range).2.inputEnded = w.inputEnded := by
  obtain ⟨_, _, frame⟩ := w.advance_frame hasNext child range
  rw [frame]

/-- Only the end of the stream ends the input. -/
theorem goesOn_accept {answer : Answer} (unended : answer ≠ .endOfStream)
    (taken : w.accept answer = .ok v) : v.inputEnded = w.inputEnded := by
  cases answer with
  | endOfStream => exact absurd rfl unended
  | notReady =>
    cases taken
    rfl
  | block block =>
    rw [accept] at taken
    split at taken
    · contradiction
    · cases taken
      split <;> rfl

section
variable (running : ∀ c, hasNext c = .ok true → (pull c).1 ≠ .ok .endOfStream)
include running

/-- A child that says that more comes does not end. -/
theorem goesOn_resolve (going : w.inputEnded = false) (child : σ) (range : TimeRange) :
    (w.resolve hasNext pull child range).2.1.inputEnded = false := by
  rcases w.resolve_cases hasNext pull child range with
    same | same | ⟨answer, d, x, more, pulled, taken, same⟩
  · rw [same, inputEnded_advance, going]
  · rw [same, inputEnded_advance, going]
  · have unended : answer ≠ .endOfStream := by
      rintro rfl
      exact running child more (by rw [pulled])
    rw [same, inputEnded_advance]
    exact (goesOn_accept unended taken).trans ((inputEnded_advance ..).trans going)

theorem lasts_goesOn : Lasts hasNext pull fun v => v.inputEnded = false where
  enter entered going := (enterWindow_frame entered).2.trans going
  resolve _ child range going := goesOn_resolve running going child range
  leave := id
  append _ := id
  start := id
  answer _ := id

theorem goesOn_next (going : w.inputEnded = false) (child : σ) :
    (w.next hasNext pull child).2.1.inputEnded = false :=
  (lasts_goesOn running).next going child

end

end WindowStage

section
variable {σ : Type} [Operator σ] {w : WindowStage} {child : Tree σ}

theorem Tree.next_window (w : WindowStage) (child : Tree σ) :
    Operator.next (Tree.window w child) =
      (w.next Operator.hasNext (fun _ => Operator.next child) child).map id fun r =>
        Tree.window r.1 r.2 := by
  change Tree.next (.window w child) = _
  rw [Tree.next]
  rfl

theorem WindowStage.running_of_drive {pulls : Nat} {blocks : List Block}
    (driven : drive pulls (Tree.window w child) = .ok (some blocks)) : w.closed = false := by
  by_contra closed
  have closed : w.closed = true := by simpa using closed
  obtain ⟨_, _, _, _, pulled, _⟩ := exists_of_drive driven
  have asked : (Operator.readiness (Tree.window w child)).2 = .window w child := by
    change (Tree.readiness (.window w child)).2 = _
    rw [Tree.readiness, asksChild, closed]
    rfl
  rw [asked, Tree.next_window, next, if_pos closed] at pulled
  cases pulled

/-- A window stage that was driven to its end has given one row for each window,
in blocks that have rows. -/
theorem WindowStage.of_drive {pulls : Nat} {blocks : List Block}
    (driven : drive pulls (Tree.window w child) = .ok (some blocks)) :
    (blocks.flatMap Block.rows).map (·.time) = w.todo.map (·.outputTime) ∧
      ∀ block ∈ blocks, block.schema.types = w.buffer.schema.types ∧ block.rows ≠ [] := by
  induction pulls generalizing w child blocks with
  | zero => cases driven
  | succ pulls ih =>
  obtain ⟨fewer, answer, t, same, pulled, ends⟩ := exists_of_drive driven
  obtain rfl : pulls = fewer := Nat.succ.inj same
  rw [readiness_window (running_of_drive driven), Tree.next_window] at pulled
  generalize (if w.inputEnded then child else (Operator.readiness child).2) = asked at pulled
  rcases called : w.next Operator.hasNext (fun _ => Operator.next asked) asked
    with ⟨outcome, v, after⟩
  rw [called] at pulled
  obtain ⟨rfl, rfl⟩ := Prod.mk.inj pulled
  obtain ⟨rows, schema, typed, last⟩ := of_next called
  rcases ends with ⟨ended, rfl⟩ | ⟨_, more, others, rfl⟩
  · rw [rows, last ended, ended]
    exact ⟨rfl, nofun⟩
  · obtain ⟨times, sorts⟩ := ih others
    rw [schema] at sorts
    constructor
    · rw [List.flatMap_append, List.map_append, answer.flatMap_blocks, times, rows]
    · intro block member
      rcases List.mem_append.1 member with first | later
      · cases answer with
        | block b =>
          obtain rfl := List.mem_singleton.1 first
          exact typed block rfl
        | notReady | endOfStream => contradiction
      · exact sorts block later

namespace WindowStage

/-- What is left of a child's answers, if the first was taken. -/
def left (answers : List Answer) (taken : Bool) : List Answer :=
  if taken then answers.tail else answers

/-- A call of the stage over a child with these answers. -/
def step (w : WindowStage) (answers : List Answer) : Attempt (WindowStage × Bool) Answer :=
  w.next (fun taken => .ok !(left answers taken).isEmpty)
    (fun _ => (.ok (answers.headD .endOfStream), true)) false

variable {answers : List Answer} {blocks : List Block}

/-- All that counts of a child is what answers it has. -/
theorem next_primed (w : WindowStage) (primed : Primed answers child) :
    ∃ after, Operator.next (Tree.window w child) =
        ((w.step answers).1, .window (w.step answers).2.1 after) ∧
      Plays (left answers (w.step answers).2.2) after := by
  obtain ⟨after, pulled, plays⟩ : ∃ after,
      (answers ≠ [] → Operator.next child = (.ok (answers.headD .endOfStream), after)) ∧
      ∀ taken : Bool, Plays (left answers taken) (if taken then after else child) := by
    cases answers with
    | nil =>
      refine ⟨child, fun some => absurd rfl some, ?_⟩
      rintro (_ | _) <;> exact primed.plays
    | cons answer rest =>
      obtain ⟨_, _, after, given, later⟩ := primed child .never
      refine ⟨after, fun _ => given, ?_⟩
      rintro (_ | _)
      · exact primed.plays
      · exact later
  have same : w.next Operator.hasNext (fun _ => Operator.next child) child =
      (w.step answers).map id (Prod.map id fun taken => if taken then after else child) := by
    refine next_map (f := fun taken : Bool => if taken then after else child)
      (fun taken => (plays taken).1.more) ?_ w false
    intro taken more
    apply pulled
    rintro rfl
    cases taken <;> cases more
  refine ⟨if (w.step answers).2.2 then after else child, ?_, plays _⟩
  rw [Tree.next_window, same]
  rfl

/-- The stage does not come to think that its child has ended. -/
theorem goesOn_step (running : Answer.endOfStream ∉ answers) (going : w.inputEnded = false) :
    (w.step answers).2.1.inputEnded = false := by
  apply goesOn_next _ going false
  intro taken more ended
  cases answers with
  | nil => cases taken <;> cases more
  | cons answer rest =>
    cases ended
    exact running List.mem_cons_self

variable {answer : Answer} {v : WindowStage} {taken : Bool}

theorem shows_window (shows : Shows answers child) {own : List Answer}
    (running : w.closed = false) (more : own = [] ↔ w.todo = []) :
    Shows own (Tree.window w child) where
  more := by
    have same : own.isEmpty = w.todo.isEmpty := by
      rw [Bool.eq_iff_iff, List.isEmpty_iff, List.isEmpty_iff, more]
    rw [same, ← hasNext_eq w running]
    rfl
  ready := by
    change (Tree.readiness (.window w child)).1 = _
    have ready : (Tree.readiness child).1 = .ready := shows.ready
    rw [Tree.readiness]
    split
    · simp only [ready]
      rfl
    · rfl

/-- Where a call gives the end there was no window left. -/
theorem plays_nil (running : w.closed = false) (going : w.inputEnded = false)
    (stepped : (w.step answers).1 = .ok .endOfStream) (none : w.todo = [])
    (plays : Plays answers child) : Plays [] (Tree.window w child) := by
  have primed : ∀ c : Tree σ, Primed answers c → Primed [] (Tree.window w c) := by
    intro c own t asked
    obtain ⟨d, rfl, same⟩ := of_asked_window running asked
    have same := same going
    obtain ⟨after, given, _⟩ := w.next_primed (own.asked same)
    exact ⟨shows_window (own.asked same).shows running (by simp [none]), _, by rw [given, stepped]⟩
  refine ⟨shows_window plays.1 running (by simp [none]), ?_⟩
  rw [readiness_window running, going]
  exact primed _ plays.2

/-- The answer of a call comes first, and those of the stage that it leaves
come after it. -/
theorem plays_cons (running : w.closed = false) (going : w.inputEnded = false)
    (stepped : w.step answers = (.ok answer, v, taken)) (unended : answer ≠ .endOfStream)
    (some : w.todo ≠ []) {own : List Answer}
    (later : ∀ other : Tree σ, Plays (left answers taken) other → Plays own (Tree.window v other))
    (plays : Plays answers child) : Plays (answer :: own) (Tree.window w child) := by
  have primed : ∀ c : Tree σ, Primed answers c → Primed (answer :: own) (Tree.window w c) := by
    intro c playing t asked
    obtain ⟨d, rfl, same⟩ := of_asked_window running asked
    have same := same going
    obtain ⟨after, given, further⟩ := w.next_primed (playing.asked same)
    rw [stepped] at given further
    exact ⟨shows_window (playing.asked same).shows running (by simp [some]), unended, _, given,
      later after further⟩
  refine ⟨shows_window plays.1 running (by simp [some]), ?_⟩
  rw [readiness_window running, going]
  exact primed _ plays.2

/-- Over a child with known answers the stage has known answers, unless it fails. -/
theorem plays_of_drive {pulls : Nat} (going : w.inputEnded = false) (plays : Plays answers child)
    (driven : drive pulls (Tree.window w child) = .ok (some blocks)) :
    ∃ own : List Answer, own.flatMap Answer.blocks = blocks ∧
      ∀ other : Tree σ, Plays answers other → Plays own (Tree.window w other) := by
  induction pulls generalizing w child answers blocks with
  | zero => cases driven
  | succ pulls ih =>
  obtain ⟨fewer, answer, t, same, pulled, ends⟩ := exists_of_drive driven
  obtain rfl : pulls = fewer := Nat.succ.inj same
  have running := running_of_drive driven
  rw [readiness_window running, going] at pulled
  obtain ⟨after, given, further⟩ := w.next_primed plays.2
  rcases stepped : w.step answers with ⟨outcome, v, taken⟩
  rw [if_neg Bool.false_ne_true, given, stepped] at pulled
  rw [stepped] at further
  obtain ⟨rfl, rfl⟩ := Prod.mk.inj pulled
  obtain ⟨rows, _, _, last⟩ := of_next stepped
  rcases ends with ⟨rfl, rfl⟩ | ⟨unended, more, others, rfl⟩
  · have none : w.todo = [] := by
      rw [last rfl] at rows
      exact List.map_eq_nil_iff.1 rows
    exact ⟨[], rfl, fun other => plays_nil running going (by rw [stepped]) none⟩
  · have open_ : v.inputEnded = false := by
      have := goesOn_step plays.2.running going
      rwa [stepped] at this
    obtain ⟨own, same, later⟩ := ih open_ further others
    have some : w.todo ≠ [] := by
      intro none
      have ended : (w.step answers).1 = .ok .endOfStream := next_nil running none
      rw [stepped] at ended
      exact unended (Except.ok.inj ended)
    refine ⟨answer :: own, by rw [List.flatMap_cons, same], ?_⟩
    intro other
    exact plays_cons running going stepped unended some later

end WindowStage

end
end WindowFold
