import WindowFold.Proofs.BlockRun
import WindowFold.Proofs.Suspension

/-! The calls of a window stage over a child that gives one block after the other.
The child is pulled once in a call at most. The rows of the windows that a call closes
and those that are owed afterwards are the rows that were owed before. -/
namespace WindowFold
variable {σ : Type} {hasNext : σ → Except Failure Bool} {pull : σ → Attempt σ Answer}
  {rough : Prop} {types : List ScalarType} {scan : Scan} {fresh : List Aggregator}
  {w v : WindowStage} {kept : Option Block} {blocks now after : List Block} {window : Window}
  {child c : σ}

theorem Hands.moved (hands : Hands rough scan fresh hasNext pull w child blocks after)
    (moved : Moved hasNext pull w child blocks after v c now) :
    Hands rough scan fresh hasNext pull v c now after := by
  cases moved with
  | stays mayPull ended _ =>
    exact ⟨ended ▸ hands.ended, ended ▸ hands.told, ended ▸ mayPull ▸ hands.pulled⟩
  | pulled before going more spent ended _ =>
    exact ⟨ended, fun _ => (hands.pulled going before more).2,
      fun _ may => absurd (spent.symm.trans may) nofun⟩

theorem Moved.trans {u : WindowStage} {d : σ} {between : List Block}
    (first : Moved hasNext pull w child blocks after u d between)
    (later : Moved hasNext pull u d between after v c now) :
    Moved hasNext pull w child blocks after v c now := by
  cases first with
  | stays mayPull ended cached =>
    cases later with
    | stays mayPull' ended' cached' =>
      exact .stays (mayPull'.trans mayPull) (ended'.trans ended) (cached' ∘ cached)
    | pulled before going more spent last goesOn =>
      exact .pulled (mayPull.symm.trans before) (ended.symm.trans going) more spent last goesOn
  | pulled before going more spent last goesOn =>
    cases later with
    | stays mayPull' ended' _ =>
      exact .pulled before going more (mayPull'.trans spent)
        (fun closed => last (ended'.symm.trans closed)) fun open_ =>
          goesOn (ended'.symm.trans open_)
    | pulled may => exact absurd (spent.symm.trans may) nofun

namespace WindowStage

theorem pullOn_fed {u : WindowStage} (prepared : Prepared types scan fresh)
    (before : w.mayPull = true) (owes : w.owed fresh kept blocks = u.owed fresh none blocks)
    (works : u.Works rough types scan fresh none blocks) (active : u.active = some window)
    (open_ : u.allSettled = false) (going : u.inputEnded = false) (spent : u.mayPull = false)
    (deal : Deal rough scan fresh blocks after (pull child).1)
    (told : Told hasNext (pull child).2 after) {outcome : Except Failure Bool}
    (pulled : u.pullOn hasNext pull child window.range = (outcome, v, c)) :
    Fed rough types scan fresh w kept blocks window outcome v after ∧ v.mayPull = false ∧
      c = (pull child).2 ∧ (v.inputEnded = true → after = []) ∧
      (v.inputEnded = false → (pull child).1 ≠ .ok .endOfStream) := by
  have stopped : ∀ e, rough → after = blocks →
      Fed rough types scan fresh w kept blocks window (.error e) u after := by
    rintro e may rfl
    exact .refused e u after may works owes fun still =>
      absurd (spent.symm.trans (still.trans before)) nofun
  rw [pullOn] at pulled
  rcases given : pull child with ⟨e | answer, d⟩
  all_goals
    rw [given] at pulled deal told
    dsimp only at pulled
  · cases pulled
    cases deal with
    | failed _ _ may =>
      exact ⟨stopped e may rfl, spent, rfl, fun closed => absurd (going.symm.trans closed) nofun,
        nofun⟩
  rcases accept_deal works active open_ deal with
    ⟨e, refused, may, same, unended⟩ | ⟨x, left, taken, worksX, owesX, activeX, mayPullX,
      endedX, goesOn⟩
  · rw [refused] at pulled
    cases pulled
    exact ⟨stopped e may same, spent, rfl, fun closed => absurd (going.symm.trans closed) nofun,
      fun _ => by simpa using unended⟩
  · have last : x.inputEnded = true → after = [] := fun closed =>
      (endedX closed).resolve_left (by simp [going])
    have fed := advance_fed prepared worksX activeX last fun _ => told
    have mayPull := (x.mayPull_advance hasNext d window.range).trans (mayPullX.trans spent)
    have ended := x.inputEnded_advance hasNext d window.range
    rw [taken] at pulled
    dsimp only at pulled
    rcases advanced : x.advance hasNext d window.range with ⟨e | need, y⟩
    all_goals
      rw [advanced] at fed mayPull ended pulled
      cases pulled
      refine ⟨fed.of_owed (owes.trans owesX) ⟨before, mayPull⟩, mayPull, rfl,
        fun closed => last (ended.symm.trans closed), fun goes => ?_⟩
      simpa using goesOn (ended.symm.trans goes)

/-- A window is brought to its end, or as far as it goes with at most one pull. -/
theorem resolve_fed (prepared : Prepared types scan fresh)
    (works : w.Works rough types scan fresh kept blocks) (active : w.active = some window)
    (hands : Hands rough scan fresh hasNext pull w child blocks after) :
    ∃ now, Fed rough types scan fresh w kept blocks window
        (w.resolve hasNext pull child window.range).1
        (w.resolve hasNext pull child window.range).2.1 now ∧
      Moved hasNext pull w child blocks after (w.resolve hasNext pull child window.range).2.1
        (w.resolve hasNext pull child window.range).2.2 now ∧
      ((w.resolve hasNext pull child window.range).1 = .ok false →
        (w.resolve hasNext pull child window.range).2.1.mayPull = false) := by
  have fed := advance_fed prepared works active hands.ended hands.told
  have stays := w.stays_advance hasNext child window.range
  have mayPull := w.mayPull_advance hasNext child window.range
  have ended := w.inputEnded_advance hasNext child window.range
  have empty := fun none : w.cached = none => cached_advance none hasNext child window.range
  rw [resolve_eq]
  rcases advanced : w.advance hasNext child window.range with ⟨e | _ | _, u⟩
  all_goals
    rw [advanced] at fed stays mayPull ended empty
    dsimp only at stays mayPull ended empty
  · exact ⟨blocks, fed, .stays mayPull ended empty, nofun⟩
  · exact ⟨blocks, fed, .stays mayPull ended empty, nofun⟩
  have suspended := suspended_of_input active advanced
  have more := told_of_input (congrArg Prod.fst advanced)
  have going : w.inputEnded = false := ended.symm.trans suspended.going
  dsimp only
  cases may : u.mayPull with
  | false => exact ⟨blocks, fed, .stays mayPull ended empty, fun _ => may⟩
  | true =>
    have before : w.mayPull = true := mayPull.symm.trans may
    obtain ⟨deal, told⟩ := hands.pulled going before more
    rw [if_neg (by simp)]
    cases fed with
    | more _ _ works owes open_ =>
    have works : Works rough types scan fresh { u with mayPull := false } none blocks :=
      { works with }
    have owes : w.owed fresh kept blocks = owed { u with mayPull := false } fresh none blocks :=
      owes
    rcases pulled : pullOn hasNext pull { u with mayPull := false } child window.range with
      ⟨outcome, v, c⟩
    obtain ⟨fed, spent, rfl, last, goesOn⟩ := pullOn_fed prepared before owes works
      (stays.active.trans active) open_ suspended.going rfl deal told pulled
    exact ⟨after, fed, .pulled before going more spent last goesOn, fun _ => spent⟩

/-- From one point of a run to a later one: the rows that were made are those of the
windows that are done, and they were owed. -/
structure Makes (rough : Prop) (types : List ScalarType) (scan : Scan) (fresh : List Aggregator)
    (hasNext : σ → Except Failure Bool) (pull : σ → Attempt σ Answer) (w : WindowStage)
    (kept : Option Block) (child : σ) (blocks after : List Block) (made : List Row)
    (v : WindowStage) (left : Option Block) (c : σ) (now : List Block) : Prop where
  works : v.Works rough types scan fresh left now
  moved : Moved hasNext pull w child blocks after v c now
  owes : w.owed fresh kept blocks = (v.owed fresh left now).map (made ++ ·)
  todo : w.todo.map (·.outputTime) = made.map (·.time) ++ v.todo.map (·.outputTime)
  closed : v.closed = w.closed

section
variable {u : WindowStage} {between left : Option Block} {d : σ} {then_ : List Block}
  {made more : List Row}

theorem Makes.refl (works : w.Works rough types scan fresh kept blocks) (child : σ) :
    Makes rough types scan fresh hasNext pull w kept child blocks after [] w kept child blocks where
  works := works
  moved := .stays rfl rfl id
  owes := by cases w.owed fresh kept blocks <;> rfl
  todo := rfl
  closed := rfl

theorem Makes.trans
    (first : Makes rough types scan fresh hasNext pull w kept child blocks after made u between
      d then_)
    (later : Makes rough types scan fresh hasNext pull u between d then_ after more v left c now) :
    Makes rough types scan fresh hasNext pull w kept child blocks after
      (made ++ more) v left c now where
  works := later.works
  moved := first.moved.trans later.moved
  owes := by
    rw [first.owes, later.owes]
    cases v.owed fresh left now with
    | error e => rfl
    | ok rows => simp [Except.map]
  todo := by rw [first.todo, later.todo, List.map_append, List.append_assoc]
  closed := later.closed.trans first.closed

end

/-- The first window that has no row yet becomes the active one. -/
theorem enterWindow_makes (works : w.Works rough types scan fresh kept blocks)
    {coming : List Window} (todo : w.todo = window :: coming) :
    ∃ u, w.enterWindow = some (window, u) ∧ u.active = some window ∧ u.buffer = w.buffer ∧
      u.mayPull = w.mayPull ∧ u.cached = w.cached ∧
      ∀ (hasNext : σ → Except Failure Bool) pull child after, Makes rough types scan fresh hasNext
        pull w kept child blocks after [] u kept child blocks := by
  rw [enterWindow]
  cases active : w.active with
  | some current =>
    obtain ⟨rfl, _⟩ : current = window ∧ w.cursor.left = coming := by
      simpa [WindowStage.todo, active] using todo
    exact ⟨w, rfl, active, rfl, rfl, rfl, fun _ _ _ _ => .refl works _⟩
  | none =>
    have next := w.cursor.next?_spec
    have windows : w.cursor.left = window :: coming := by
      simpa [WindowStage.todo, active] using todo
    rw [windows] at next
    obtain ⟨cursor, met, rest, sameScan⟩ := next
    rw [met]
    have entered : enterAll w.aggregators window.range = enterAll fresh window.range :=
      works.idle window.range
    refine ⟨_, rfl, rfl, rfl, rfl, rfl, fun _ _ _ _ => ?_⟩
    exact {
      works := {
        sameScan := sameScan.trans works.sameScan
        idle := by rw [entered]; exact (entered_enterAll fresh window.range).enterAll_eq
        busy := by
          rintro _ ⟨⟩
          rw [entered]
          exact entered_enterAll fresh window.range
        real := fun may x member => works.real may x <| by
          rw [todo]
          rwa [WindowStage.todo, rest] at member
        cached := works.cached
        fit := works.fit }
      moved := .stays rfl rfl id
      owes := by
        have before : w.owed fresh kept blocks =
            Filling.rows w.scan fresh w.cursor.left kept blocks := by rw [owed, active]
        rw [before, windows, Filling.rows_cons, owed_active rfl, entered, rest]
        simp only [WindowStage.scan, sameScan]
        cases Filling.finish w.cursor.scan fresh window coming _ <;> rfl
      todo := by
        rw [todo, WindowStage.todo, rest]
        rfl
      closed := rfl }

/-- What closing windows comes to. It stops where the buffer is full, where the child
has to be waited for and where no window is left, and else it has been refused. -/
inductive Closes (rough : Prop) (types : List ScalarType) (scan : Scan) (fresh : List Aggregator)
    (limits : Limits) (hasNext : σ → Except Failure Bool) (pull : σ → Attempt σ Answer)
    (w : WindowStage) (kept : Option Block) (child : σ) (blocks after : List Block)
    (rows : List Row) : Except Failure Unit → WindowStage → σ → Prop where
  | failed (e : Failure) (v : WindowStage) (c : σ) (owes : w.owed fresh kept blocks = .error e) :
      Closes rough types scan fresh limits hasNext pull w kept child blocks after rows
        (.error e) v c
  | refused (e : Failure) (v : WindowStage) (c : σ) (left : Option Block) (now : List Block)
      (made : List Row) (may : rough)
      (makes : Makes rough types scan fresh hasNext pull w kept child blocks after made v
        left c now)
      (holds : v.buffer.Holds (outputSchema fresh) (rows ++ made)) (sized : v.buffer.Sized limits)
      (roomy : v.buffer.isFull = false)
      (used : v.mayPull = w.mayPull → w.cached ≠ none ∧ v.cached = none) :
      Closes rough types scan fresh limits hasNext pull w kept child blocks after rows
        (.error e) v c
  | done (v : WindowStage) (c : σ) (left : Option Block) (now : List Block) (made : List Row)
      (makes : Makes rough types scan fresh hasNext pull w kept child blocks after made v
        left c now)
      (holds : v.buffer.Holds (outputSchema fresh) (rows ++ made)) (sized : v.buffer.Sized limits)
      (stops : v.buffer.isFull = true ∨ v.todo = [] ∨ v.mayPull = false) :
      Closes rough types scan fresh limits hasNext pull w kept child blocks after rows (.ok ()) v c

/-- Windows that were closed before count too. -/
theorem Closes.prepend {limits : Limits} {rows made : List Row} {u : WindowStage}
    {between : Option Block} {d : σ} {coming : List Block} {outcome : Except Failure Unit}
    (first : Makes rough types scan fresh hasNext pull w kept child blocks after made u between
      d coming)
    (later : Closes rough types scan fresh limits hasNext pull u between d coming after
      (rows ++ made) outcome v c) :
    Closes rough types scan fresh limits hasNext pull w kept child blocks after rows
      outcome v c := by
  cases later with
  | failed e _ _ owes =>
    refine .failed e v c ?_
    rw [first.owes, owes]
    rfl
  | refused e _ _ left now more may makes holds sized roomy used =>
    refine .refused e v c left now (made ++ more) may (first.trans makes)
      (List.append_assoc .. ▸ holds) sized roomy fun still => ?_
    cases first.moved with
    | stays mayPull _ cached =>
      obtain ⟨held, empty⟩ := used (still.trans mayPull.symm)
      exact ⟨mt cached held, empty⟩
    | pulled before _ _ spent _ _ =>
      cases makes.moved with
      | stays mayPull => exact absurd ((still.trans before).symm.trans (mayPull.trans spent)) nofun
      | pulled may => exact absurd (spent.symm.trans may) nofun
  | done _ _ left now more makes holds sized stops =>
    exact .done v c left now (made ++ more) (first.trans makes)
      (List.append_assoc .. ▸ holds) sized stops

/-- The work on a window that is not done makes no row. -/
theorem makes_nothing {u x : WindowStage} {left : Option Block} {d : σ}
    (works : x.Works rough types scan fresh left now)
    (moved : Moved hasNext pull u child blocks after x d now) (stays : u.Stays x)
    (owes : u.owed fresh kept blocks = x.owed fresh left now) :
    Makes rough types scan fresh hasNext pull u kept child blocks after [] x left d now where
  works := works
  moved := moved
  owes := by rw [owes]; cases x.owed fresh left now <;> rfl
  todo := by rw [stays.todo]; rfl
  closed := stays.closed

/-- A window is done, and its row is in the buffer. -/
theorem makes_done {u x : WindowStage} {d : σ}
    (fed : Fed rough types scan fresh u kept blocks window (.ok true) x now)
    (moved : Moved hasNext pull u child blocks after x d now) (stays : u.Stays x)
    (active : u.active = some window) {limits : Limits} {rows : List Row}
    (holds : u.buffer.Holds (outputSchema fresh) rows) (sized : u.buffer.Sized limits) :
    ∃ left buffer, x.buffer.append window.outputTime (outputRow x.aggregators) = .ok buffer ∧
      buffer.Holds (outputSchema fresh) (rows ++ [x.rowOf window]) ∧ buffer.Sized limits ∧
      Makes rough types scan fresh hasNext pull u kept child blocks after [x.rowOf window]
        { x with active := none, buffer := buffer } left d now := by
  cases fed with
  | done _ left _ works entered owes =>
  obtain ⟨buffer, appended, held⟩ := (stays.buffer ▸ holds).append window.outputTime
    entered.outputRow_types
  refine ⟨left, buffer, appended, held, (stays.buffer ▸ sized).append appended, ?_⟩
  exact {
    works := { works with }
    moved := moved.trans (.stays rfl rfl id)
    owes := owes
    todo := by
      rw [WindowStage.todo, active, ← stays.cursor]
      rfl
    closed := stays.closed }

theorem closeWindows_closes (prepared : Prepared types scan fresh) {limits : Limits} {windows : Nat}
    {rows : List Row} (enough : windows = w.todo.length)
    (works : w.Works rough types scan fresh kept blocks)
    (hands : Hands rough scan fresh hasNext pull w child blocks after)
    (holds : w.buffer.Holds (outputSchema fresh) rows) (sized : w.buffer.Sized limits) :
    Closes rough types scan fresh limits hasNext pull w kept child blocks after rows
      (w.closeWindows hasNext pull windows child).1 (w.closeWindows hasNext pull windows child).2.1
      (w.closeWindows hasNext pull windows child).2.2 := by
  have held : w.buffer.Holds (outputSchema fresh) (rows ++ []) := by rwa [List.append_nil]
  induction windows generalizing w child kept blocks rows with
  | zero =>
    exact .done w child kept blocks [] (.refl works child) held sized
      (.inr (.inl (List.length_eq_zero_iff.1 enough.symm)))
  | succ windows ih =>
    obtain ⟨window, coming, todo⟩ := List.exists_cons_of_length_eq_add_one enough.symm
    rw [closeWindows]
    split
    next full => exact .done w child kept blocks [] (.refl works child) held sized (.inl full)
    next roomy =>
    obtain ⟨u, entered, active, buffer, mayPull, cached, enters⟩ := enterWindow_makes works todo
    have enters := enters hasNext pull child after
    obtain ⟨now, fed, moved, waits⟩ :=
      resolve_fed prepared enters.works active (hands.moved enters.moved)
    have stays := u.stays_resolve hasNext pull child window.range
    rw [entered]
    dsimp only
    rcases resolved : u.resolve hasNext pull child window.range with ⟨e | _ | _, x, d⟩
    all_goals
      rw [resolved] at fed moved waits stays
      dsimp only at fed moved waits stays
    · cases fed with
      | failed _ _ _ owes => exact .prepend enters (.failed e x d owes)
      | refused _ _ _ may worksX owes used =>
        have same : x.buffer = w.buffer := stays.buffer.trans buffer
        refine .prepend enters
          (.refused e x d none now [] may (makes_nothing worksX moved stays owes)
          ?_ (same ▸ sized) ?_ used)
        · simpa [same] using holds
        · simpa [same] using roomy
    · cases fed with
      | more _ _ worksX owes =>
      have same : x.buffer = w.buffer := stays.buffer.trans buffer
      refine .prepend enters (.done x d none now [] (makes_nothing worksX moved stays owes) ?_
        (same ▸ sized) (.inr (.inr ?_)))
      · simpa [same] using holds
      · exact waits rfl
    · obtain ⟨left, filled, appended, held, sized, makes⟩ := makes_done fed moved stays active
        (buffer ▸ holds) (buffer ▸ sized)
      dsimp only
      rw [appended]
      refine .prepend (enters.trans makes) (ih ?_ makes.works
        (hands.moved (enters.trans makes).moved) held sized ?_)
      · have counted := congrArg List.length (enters.trans makes).todo
        simp only [List.length_map, List.length_append, List.nil_append,
          List.length_singleton] at counted
        omega
      · simpa using held

/-- A stage between two calls. -/
structure Paused (rough : Prop) (types : List ScalarType) (scan : Scan) (fresh : List Aggregator)
    (limits : Limits) (w : WindowStage) (kept : Option Block) (blocks : List Block) : Prop where
  works : w.Works rough types scan fresh kept blocks
  running : w.closed = false
  ended : w.inputEnded = true → blocks = []
  holds : ∃ rows, w.buffer.Holds (outputSchema fresh) rows
  sized : w.buffer.Sized limits

theorem paused_create (context : Context) {series : WindowSeries}
    (real : rough → ∀ window ∈ series.toList, window.range.contains window.outputTime = true)
    (fit : Aggregator.Fit types scan blocks) :
    (create context fresh (.start series scan)).Paused rough types scan fresh context.limits none
      blocks where
  works := {
    sameScan := rfl
    idle := fun _ => rfl
    busy := nofun
    real := fun may window member => real may window (WindowSeries.mem_scanned.1 member)
    cached := .inl rfl
    fit := fit }
  running := rfl
  ended := nofun
  holds := ⟨[], RowBuffer.holds_create _ _⟩
  sized := ⟨rfl, rfl⟩

/-- What a call comes to: the rows that it answers with were owed. So were those that it
has made when it is refused, and it does not answer with them. -/
inductive Gives (rough : Prop) (types : List ScalarType) (scan : Scan) (fresh : List Aggregator)
    (limits : Limits) (hasNext : σ → Except Failure Bool) (pull : σ → Attempt σ Answer)
    (w : WindowStage) (kept : Option Block) (child : σ) (blocks after : List Block) :
    Except Failure Answer → WindowStage → σ → Prop where
  | failed (e : Failure) (v : WindowStage) (c : σ) (owes : w.owed fresh kept blocks = .error e) :
      Gives rough types scan fresh limits hasNext pull w kept child blocks after (.error e) v c
  | refused (e : Failure) (v : WindowStage) (c : σ) (left : Option Block) (now : List Block)
      (made : List Row) (may : rough)
      (makes : Makes rough types scan fresh hasNext pull w.anew kept child blocks after made v
        left c now)
      (paused : v.Paused rough types scan fresh limits left now)
      (single : limits.rows ≤ 1 → made = [])
      (used : v.mayPull = true → w.cached ≠ none ∧ v.cached = none) :
      Gives rough types scan fresh limits hasNext pull w kept child blocks after (.error e) v c
  | answers (answer : Answer) (v : WindowStage) (c : σ) (left : Option Block) (now : List Block)
      (makes : Makes rough types scan fresh hasNext pull w.anew kept child blocks after
        answer.rows v left c now)
      (paused : v.Paused rough types scan fresh limits left now)
      (last : answer = .endOfStream → v.todo = [])
      (goesOn : answer ≠ .endOfStream → answer.rows ≠ [] ∨ v.mayPull = false) :
      Gives rough types scan fresh limits hasNext pull w kept child blocks after (.ok answer) v c

theorem next_gives (prepared : Prepared types scan fresh) {limits : Limits}
    (paused : w.Paused rough types scan fresh limits kept blocks)
    (hands : Hands rough scan fresh hasNext pull w.anew child blocks after) :
    Gives rough types scan fresh limits hasNext pull w kept child blocks after
      (w.next hasNext pull child).1 (w.next hasNext pull child).2.1
      (w.next hasNext pull child).2.2 := by
  obtain ⟨rows, holds⟩ := paused.holds
  have works : w.anew.Works rough types scan fresh kept blocks := { paused.works with }
  have sized : w.anew.buffer.Sized limits := ⟨paused.sized.rows, paused.sized.bytes⟩
  have closes := closeWindows_closes prepared w.anew.windowsLeft_eq works hands
    (show w.anew.buffer.Holds (outputSchema fresh) [] from holds.clear) sized
  rw [next_eq paused.running]
  rcases closing : w.anew.closeWindows hasNext pull w.anew.windowsLeft child with ⟨e | _, v, c⟩
  all_goals
    rw [closing] at closes
    dsimp only at closes ⊢
  · cases closes with
    | failed _ _ _ owes => exact .failed e v c owes
    | refused _ _ _ left now made may makes holds sized roomy used =>
      have running : v.closed = false := makes.closed.trans paused.running
      refine .refused e v c left now made may makes
        ⟨makes.works, running, (hands.moved makes.moved).ended, ⟨_, holds⟩, sized⟩
          (fun one => ?_) used
      have times := congrArg List.length holds.times
      have size := sized.rows
      simp only [RowBuffer.isFull, RowBuffer.rowCount, times, Bool.or_eq_false_iff,
        decide_eq_false_iff_not, List.nil_append, List.length_map] at roomy
      exact List.length_eq_zero_iff.1 (by omega)
  · cases closes with
    | done _ _ left now made makes holds sized stops =>
    have running : v.closed = false := makes.closed.trans paused.running
    rw [List.nil_append] at holds
    -- The rows to come are told from those of the call by their number alone.
    let rest : List Row := v.todo.map fun window => ⟨window.outputTime, []⟩
    have last : v.hasNext = false ↔ rest = [] := by
      rw [hasNext_eq v running, Bool.not_eq_false', List.isEmpty_iff, List.map_eq_nil_iff]
    obtain ⟨answer, buffer, answered, cleared, leaves, some⟩ :=
      holds.answer outputFields_nullable (rfl : made ++ rest = made ++ rest) last
    obtain rfl : made = answer.rows := List.append_cancel_right leaves.given
    have size := sized.answer v.hasNext
    rw [answered] at size
    rw [answer_eq, answered]
    have after : Makes rough types scan fresh hasNext pull w.anew kept child blocks after
        answer.rows { v with buffer := buffer } left c now :=
      { makes with works := { makes.works with }, moved := makes.moved.trans (.stays rfl rfl id) }
    refine .answers answer _ c left now after
      ⟨after.works, running, (hands.moved makes.moved).ended, ⟨[], cleared⟩, size⟩
      (fun ended => List.map_eq_nil_iff.1 (leaves.ended ended)) fun going => ?_
    by_cases none : answer.rows = []
    · rw [none] at holds
      rcases stops with full | done | spent
      · rw [holds.not_full] at full
        contradiction
      · have windows : rest = [] := List.map_eq_nil_iff.2 done
        exact absurd (some going) (by simp [none, windows])
      · exact .inr spent
    · exact .inl none

end WindowStage
end WindowFold
