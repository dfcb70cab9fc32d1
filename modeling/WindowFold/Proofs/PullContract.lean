import WindowFold.Proofs.ClippedQueries
import WindowFold.Proofs.Requests
import WindowFold.Proofs.Suspension

/-! Whether a window stage keeps the rule of pulling towards its child, for a
caller that keeps it towards the stage. A call that closes a window may pull the
child afterwards and be told to wait, and yet it answers with a block: its caller
may pull at once. -/
namespace WindowFold

/-- Has answered that there is nothing yet, was not asked for its readiness since,
and has more to give. -/
def Script.Waits (s : Script) : Prop := s.awaiting = true ∧ s.lines ≠ []

theorem Script.next_free {s : Script} (free : ¬ s.Waits) (some : s.lines ≠ []) :
    ∃ outcome t, s.next = (outcome, t) ∧ Lawful outcome ∧ (t.Waits → outcome = .ok .notReady) := by
  have asked : s.awaiting = false := by
    by_contra awaiting
    exact free ⟨by simpa using awaiting, some⟩
  obtain ⟨line, rest, lines⟩ := List.exists_cons_of_ne_nil some
  simp only [Script.next, asked, lines]
  cases line with
  | failure text =>
    refine ⟨_, _, rfl, ?_, fun waits => absurd waits.1 Bool.false_ne_true⟩
    rintro operator breach ⟨⟩
  | answer answer =>
    refine ⟨_, _, rfl, lawful_ok _, fun waits => ?_⟩
    rw [show answer = .notReady by simpa using waits.1]

theorem RowBuffer.lawful_answer (b : RowBuffer) (more : Bool) : Lawful (b.answer more).1 := by
  rw [RowBuffer.answer]
  split
  · exact lawful_ok _
  · exact b.lawful_build.map _

namespace WindowStage
variable {w v : WindowStage} {s : Script} {window : Window} {range : TimeRange} {limits : Limits}

theorem lines_of_told {s : Script} (more : (Tree.source s).hasNext = .ok true) : s.lines ≠ [] := by
  intro none
  have told : (Tree.source s).hasNext = .ok (!s.lines.isEmpty) := rfl
  rw [told, none] at more
  cases more

theorem lawful_told (tree : Tree Script) : Lawful tree.hasNext := by
  cases tree <;> exact lawful_ok _

/-- A pull that does not come too early breaks no rule. If the script waits afterwards, the
stage does. -/
theorem pullOn_free {pull : Tree Script → Attempt (Tree Script) Answer}
    (suspended : w.Suspended) (spent : w.mayPull = false) (free : ¬ s.Waits) (some : s.lines ≠ [])
    (pulls : pull (.source s) = (Tree.source s).next) (range : TimeRange) :
    ∃ outcome v t, w.pullOn Tree.hasNext pull (.source s) range = (outcome, v, .source t) ∧
      Lawful outcome ∧ v.mayPull = false ∧ (t.Waits → outcome = .ok false ∧ v.Suspended) := by
  obtain ⟨outcome, t, given, fair, told⟩ := s.next_free free some
  have pulled : (Tree.source s).next = (outcome, .source t) :=
    congrArg (fun r : Attempt Script Answer => (r.1, Tree.source r.2)) given
  rw [pullOn, pulls, pulled]
  rcases outcome with e | answer
  · exact ⟨_, _, t, rfl, fair.error rfl, spent, fun waits => absurd (told waits) nofun⟩
  dsimp only
  by_cases wait : answer = .notReady
  · subst wait
    have more : (Tree.source t).hasNext = .ok (!t.lines.isEmpty) := rfl
    rw [accept]
    dsimp only
    rw [suspended.advance_eq, more]
    cases lines : t.lines with
    | nil => exact ⟨_, _, t, rfl, lawful_ok _, spent, fun waits => absurd lines waits.2⟩
    | cons => exact ⟨_, _, t, rfl, lawful_ok _, spent, fun _ => ⟨rfl, suspended⟩⟩
  have given : ¬ t.Waits := fun waits => wait (Except.ok.inj (told waits))
  have accepted := lawful_accept w answer
  rcases taken : w.accept answer with e | x
  · exact ⟨_, _, t, rfl, accepted.error taken, spent, fun waits => absurd waits given⟩
  have still : x.mayPull = false := by
    obtain ⟨_, _, rfl, _⟩ := accept_frame taken
    exact spent
  obtain ⟨again, _⟩ := lawful_advance lawful_told x (.source t) range
  have same := (x.mayPull_advance Tree.hasNext (.source t) range).trans still
  dsimp only
  rcases ended : x.advance Tree.hasNext (.source t) range with ⟨e | need, y⟩
  all_goals rw [ended] at again same
  · exact ⟨_, y, t, rfl, again.error rfl, same, fun waits => absurd waits given⟩
  · exact ⟨_, y, t, rfl, lawful_ok _, same, fun waits => absurd waits given⟩

/-- The work on a window breaks no rule, unless the script waits before. If it waits
afterwards, the stage does. -/
theorem resolve_free {pull : Tree Script → Attempt (Tree Script) Answer}
    (active : w.active = some window) (free : ¬ s.Waits)
    (pulls : w.mayPull = true → pull (.source s) = (Tree.source s).next) (range : TimeRange) :
    ∃ outcome v t, w.resolve Tree.hasNext pull (.source s) range = (outcome, v, .source t) ∧
      Lawful outcome ∧ (v.mayPull = true → w.mayPull = true ∧ t = s) ∧
      (t.Waits → outcome = .ok false ∧ v.Suspended) := by
  obtain ⟨lawful, _⟩ := lawful_advance lawful_told w (.source s) range
  have same := w.mayPull_advance Tree.hasNext (.source s) range
  rw [resolve_eq]
  rcases advanced : w.advance Tree.hasNext (.source s) range with ⟨e | _ | _, u⟩
  all_goals rw [advanced] at lawful same
  · exact ⟨.error e, u, s, rfl, lawful.error rfl, fun may => ⟨same ▸ may, rfl⟩,
      fun waits => absurd waits free⟩
  · exact ⟨.ok true, u, s, rfl, lawful_ok _, fun may => ⟨same ▸ may, rfl⟩,
      fun waits => absurd waits free⟩
  have suspended := suspended_of_input active advanced
  have some := lines_of_told (told_of_input (congrArg Prod.fst advanced))
  dsimp only at same ⊢
  cases may : u.mayPull with
  | false =>
    exact ⟨_, u, s, rfl, lawful_ok _, fun held => absurd (may.symm.trans held) nofun,
      fun waits => absurd waits free⟩
  | true =>
    rw [if_neg (by simp)]
    have still : Suspended { u with mayPull := false } := { suspended with }
    obtain ⟨outcome, v, t, pulled, fair, spent, waiting⟩ :=
      pullOn_free still rfl free some (pulls (same.symm.trans may)) range
    exact ⟨outcome, v, t, pulled, fair, fun held => absurd (spent.symm.trans held) nofun, waiting⟩

/-- Where a call of an open stage over a script stands: no rule is broken, and if the
script waits, so does the stage, with room in its buffer. -/
structure Reached {α : Type} (limits : Limits) (stopped : α) (outcome : Except Failure α)
    (v : WindowStage) (t : Script) : Prop where
  lawful : Lawful outcome
  closed : v.closed = false
  sized : v.buffer.Sized limits
  waiting : t.Waits → outcome = .ok stopped ∧ v.Suspended ∧ v.buffer.isFull = false

theorem closeWindows_free (pull : Tree Script → Attempt (Tree Script) Answer) (windows : Nat)
    (running : w.closed = false) (sized : w.buffer.Sized limits) (free : ¬ s.Waits)
    (pulls : w.mayPull = true → pull (.source s) = (Tree.source s).next) :
    ∃ outcome v t,
      w.closeWindows Tree.hasNext pull windows (.source s) = (outcome, v, .source t) ∧
      Reached limits () outcome v t := by
  have stop : Reached limits () (.ok ()) w s :=
    ⟨lawful_ok _, running, sized, fun waits => absurd waits free⟩
  induction windows generalizing w s with
  | zero => exact ⟨_, w, s, rfl, stop⟩
  | succ windows ih =>
    rw [closeWindows]
    split
    · exact ⟨_, w, s, rfl, stop⟩
    next roomy =>
    split
    · exact ⟨_, w, s, rfl, stop⟩
    next window u entered =>
    obtain ⟨_, active, buffer, closed⟩ := of_enterWindow entered
    have may : u.mayPull = w.mayPull := mayPull_enterWindow entered
    have stays := u.stays_resolve Tree.hasNext pull (.source s) window.range
    obtain ⟨outcome, v, t, resolved, lawful, further, waiting⟩ :=
      resolve_free active free (fun held => pulls (may ▸ held)) window.range
    rw [resolved] at stays ⊢
    have same : v.buffer = w.buffer := stays.buffer.trans buffer
    have still : v.closed = false := stays.closed.trans (closed.trans running)
    rcases outcome with e | _ | _
    · exact ⟨_, v, t, rfl, lawful.error rfl, still, same ▸ sized,
        fun waits => absurd (waiting waits).1 (by simp)⟩
    · refine ⟨_, v, t, rfl, lawful_ok _, still, same ▸ sized,
        fun waits => ⟨rfl, (waiting waits).2, ?_⟩⟩
      rw [same]
      simpa using roomy
    · have free : ¬ t.Waits := fun waits => absurd (waiting waits).1 (by simp)
      have appended := v.buffer.lawful_append window.outputTime (outputRow v.aggregators)
      dsimp only
      rcases added : v.buffer.append window.outputTime (outputRow v.aggregators) with e | buffer
      · exact ⟨_, { v with active := none }, t, rfl, appended.error added, still, same ▸ sized,
          fun waits => absurd waits free⟩
      · have sized : buffer.Sized limits := (same ▸ sized : v.buffer.Sized limits).append added
        refine ih still sized free (fun held => ?_) ⟨lawful_ok _, still, sized,
          fun waits => absurd waits free⟩
        obtain ⟨before, rfl⟩ := further held
        exact pulls (may ▸ before)

/-- What is left of an open stage over a script after a call. -/
structure Over (limits : Limits) (w : WindowStage) (s : Script) : Prop where
  sized : w.buffer.Sized limits
  suspended : w.closed = false → s.Waits → w.Suspended

theorem Over.next_waits (stands : w.Over limits s) (running : w.closed = false) (waits : s.Waits) :
    ∃ v, (Tree.window w (.source s)).next =
        (.error (.protocolViolation "scripted" .pulledTwice), .window v (.source s)) ∧
      v.Over limits s ∧ v.closed = false := by
  have suspended := stands.suspended running waits
  obtain ⟨window, active⟩ := Option.ne_none_iff_exists'.1 suspended.active
  let u : WindowStage := w.anew
  have still : u.Suspended := { suspended with }
  have sized : u.buffer.Sized limits := ⟨stands.sized.rows, stands.sized.bytes⟩
  have windows : u.windowsLeft = u.cursor.remaining + 1 := by
    rw [windowsLeft, show u.active = some window from active]
    rfl
  have roomy : u.buffer.isFull = false := sized.not_full rfl rfl
  have entered : u.enterWindow = some (window, u) := by
    rw [enterWindow, show u.active = some window from active]
  have told : (Tree.source s).hasNext = .ok true := by
    change Except.ok (!s.lines.isEmpty) = _
    rw [List.isEmpty_eq_false_iff.2 waits.2]
    rfl
  have pulled : (Tree.source s).next =
      (.error (.protocolViolation "scripted" .pulledTwice), .source s) := by
    change (s.next.1, Tree.source s.next.2) = _
    rw [Script.next, if_pos waits.1]
  have resolved : u.resolve Tree.hasNext (fun _ => (Tree.source s).next) (.source s) window.range =
      (.error (.protocolViolation "scripted" .pulledTwice), { u with mayPull := false },
        .source s) := by
    rw [resolve, still.advance_eq, told, pulled]
    rfl
  have closing : u.closeWindows Tree.hasNext (fun _ => (Tree.source s).next) u.windowsLeft
      (.source s) = (.error (.protocolViolation "scripted" .pulledTwice),
        { u with mayPull := false }, .source s) := by
    rw [windows, closeWindows, if_neg (by simp [roomy]), entered]
    dsimp only
    rw [resolved]
  refine ⟨{ u with mayPull := false }, ?_, ⟨sized, fun _ _ => { still with }⟩, running⟩
  rw [Tree.next, next_eq running, show w.anew.closeWindows _ _ _ _ = _ from closing]

theorem Over.next_free (stands : w.Over limits s) (running : w.closed = false) (free : ¬ s.Waits) :
    ∃ outcome v t, (Tree.window w (.source s)).next = (outcome, .window v (.source t)) ∧
      v.Over limits t ∧ v.closed = false ∧ Lawful outcome ∧
      (t.Waits → limits.rows ≤ 1 → outcome = .ok .notReady) := by
  have sized : w.anew.buffer.Sized limits := ⟨stands.sized.rows, stands.sized.bytes⟩
  obtain ⟨outcome, v, t, closing, reached⟩ := closeWindows_free (fun _ => (Tree.source s).next)
    w.anew.windowsLeft (w := w.anew) running sized free fun _ => rfl
  rw [Tree.next, next_eq running, show w.anew.closeWindows _ _ _ _ = _ from closing]
  rcases outcome with e | _
  · exact ⟨_, v, t, rfl, ⟨reached.sized, fun _ waits => (reached.waiting waits).2.1⟩,
      reached.closed,
      reached.lawful.error rfl, fun waits => absurd (reached.waiting waits).1 (by simp)⟩
  dsimp only
  rw [answer_eq]
  refine ⟨_, _, t, rfl, ⟨reached.sized.answer _, fun _ waits => ?_⟩, reached.closed,
    v.buffer.lawful_answer _, fun waits single => ?_⟩
  · exact { (reached.waiting waits).2.1 with }
  · obtain ⟨_, suspended, roomy⟩ := reached.waiting waits
    have none : v.buffer.isEmpty = true := by
      have rows := reached.sized.rows
      simp only [RowBuffer.isFull, RowBuffer.rowCount, Bool.or_eq_false_iff,
        decide_eq_false_iff_not] at roomy
      have few := of_decide_eq_false roomy.1
      rw [RowBuffer.isEmpty, List.isEmpty_iff, ← List.length_eq_zero_iff]
      omega
    have more : v.hasNext = true := by
      rw [hasNext, reached.closed, Option.isSome_iff_ne_none.2 suspended.active]
      rfl
    rw [RowBuffer.answer, if_pos none, if_pos more]
    rfl

end WindowStage

namespace Tree
variable {w : WindowStage} {s : Script} {limits : Limits} {tree : Tree Script}
  {requests : List Request}

def Awaits : Tree Script → Prop
  | source s => s.Waits
  | window _ child => child.Awaits
  | merge _ _ => False

def askAll (tree : Tree Script) (requests : List Request) : Tree Script := requests.foldl ask tree

/-- A pull of the script comes too early. -/
def Breaks : Tree Script → List Request → Prop
  | _, [] => False
  | tree, request :: rest =>
    request = .next ∧ tree.next.1 = .error (.protocolViolation "scripted" .pulledTwice) ∨
      (tree.ask request).Breaks rest

/-- What the caller was told last, by a request or before: that there is nothing yet,
and the readiness is still to be checked. -/
def mustWait (tree : Tree Script) (told : Bool) : Request → Bool
  | .hasNext | .close => told
  | .readiness => false
  | .next =>
    match tree.next.1 with
    | .ok .notReady => true
    | _ => false

/-- The caller keeps the rule: it does not pull while it must wait. -/
def Obeys : Tree Script → (told : Bool) → List Request → Prop
  | _, _, [] => True
  | tree, told, request :: rest =>
    (request = .next → told = false) ∧ (tree.ask request).Obeys (tree.mustWait told request) rest

/-- The next call answers something else than that there is nothing yet, and yet the
script below waits. -/
def Hides (tree : Tree Script) : Prop := tree.next.1 ≠ .ok .notReady ∧ tree.next.2.Awaits

theorem breaks_of_later {tree : Tree Script} {first : List Request}
    (breaks : (tree.askAll first).Breaks requests) : tree.Breaks (first ++ requests) := by
  induction first generalizing tree with
  | nil => exact breaks
  | cons request rest ih => exact .inr (ih breaks)

theorem hides_cons {request : Request} {after : Tree Script} (asked : tree.ask request = after)
    (other : request ≠ .close)
    (hidden : ∃ before skipped later : List Request,
      requests = before ++ .next :: skipped ++ .next :: later ∧ .close ∉ before ∧
        (∀ r ∈ skipped, r = .hasNext) ∧ (after.askAll before).Hides) :
    ∃ before skipped later : List Request,
      request :: requests = before ++ .next :: skipped ++ .next :: later ∧ .close ∉ before ∧
        (∀ r ∈ skipped, r = .hasNext) ∧ (tree.askAll before).Hides := by
  obtain ⟨before, skipped, later, rfl, open_, idle, hides⟩ := hidden
  refine ⟨request :: before, skipped, later, rfl, ?_, idle, ?_⟩
  · rw [List.mem_cons, not_or]
    exact ⟨Ne.symm other, open_⟩
  · rw [askAll, List.foldl_cons, asked]
    exact hides

theorem ask_closed (closed : w.closed = true) (request : Request) :
    (window w (source s)).ask request = window w (source s) := by
  cases request with
  | hasNext => rfl
  | readiness =>
    have quiet : w.asksChild = false := by rw [WindowStage.asksChild, closed]; rfl
    rw [ask, readiness, quiet]
    rfl
  | next =>
    rw [ask, next, WindowStage.next, if_pos closed]
  | close =>
    rw [ask, close, if_pos closed]

theorem not_breaks_closed (closed : w.closed = true) :
    ¬ (window w (source s)).Breaks requests := by
  induction requests with
  | nil => exact id
  | cons request rest ih =>
    rintro (⟨rfl, broken⟩ | later)
    · rw [next, WindowStage.next, if_pos closed] at broken
      exact absurd broken (by simp)
    · rw [ask_closed closed] at later
      exact ih later

theorem not_breaks_close : ¬ ((window w (source s)).ask .close).Breaks requests := by
  cases closed : w.closed with
  | true =>
    rw [ask_closed closed]
    exact not_breaks_closed closed
  | false =>
    have ended : (window w (source s)).ask .close = window w.close (source s.close.2) := by
      rw [ask, close, if_neg (by simp [closed])]
      rfl
    rw [ended]
    exact not_breaks_closed rfl

section
variable (stands : w.Over limits s)
include stands

theorem ask_readiness (running : w.closed = false) :
    ∃ t, (window w (source s)).ask .readiness = window w (source t) ∧ w.Over limits t ∧
      ¬ t.Waits := by
  by_cases asks : w.asksChild = true
  · refine ⟨(Operator.readiness s).2, ?_, ⟨stands.sized, fun _ waits => ?_⟩, ?_⟩
    · rw [ask, readiness, if_pos asks]
      rfl
    · exact absurd waits.1 Bool.false_ne_true
    · exact fun waits => absurd waits.1 Bool.false_ne_true
  · refine ⟨s, ?_, stands, fun waits => ?_⟩
    · rw [ask, readiness, if_neg asks]
    · have going := (stands.suspended running waits).going
      rw [WindowStage.asksChild, running, going] at asks
      exact asks rfl

theorem ask_over (request : Request) :
    ∃ v t, (window w (source s)).ask request = window v (source t) ∧ v.Over limits t ∧
      (w.closed = true → v.closed = true) ∧
      (request ≠ .close → w.closed = false → v.closed = false) := by
  cases closed : w.closed with
  | false =>
    cases request with
    | hasNext => exact ⟨w, s, rfl, stands, by simp, fun _ _ => closed⟩
    | readiness =>
      obtain ⟨t, asked, further, _⟩ := ask_readiness stands closed
      exact ⟨w, t, asked, further, by simp, fun _ _ => closed⟩
    | close =>
      refine ⟨w.close, (Operator.close s).2, ?_,
        ⟨stands.sized, fun running => absurd running.symm Bool.false_ne_true⟩,
        by simp, fun other => ?_⟩
      · rw [ask, close, if_neg (by simp [closed])]
        rfl
      · exact absurd rfl other
    | next =>
      by_cases waits : s.Waits
      · obtain ⟨v, called, further, running⟩ := stands.next_waits closed waits
        exact ⟨v, s, congrArg Prod.snd called, further, by simp, fun _ _ => running⟩
      · obtain ⟨_, v, t, called, further, running, _⟩ := stands.next_free closed waits
        exact ⟨v, t, congrArg Prod.snd called, further, by simp, fun _ _ => running⟩
  | true => exact ⟨w, s, ask_closed closed request, stands, fun _ => closed, by simp⟩

theorem askAll_over (running : w.closed = false) (open_ : Request.close ∉ requests) :
    ∃ v t, (window w (source s)).askAll requests = window v (source t) ∧ v.Over limits t ∧
      v.closed = false := by
  induction requests generalizing w s with
  | nil => exact ⟨w, s, rfl, stands, running⟩
  | cons request rest ih =>
    rw [List.mem_cons, not_or] at open_
    obtain ⟨v, t, asked, further, _, stays⟩ := ask_over stands request
    rw [askAll, List.foldl_cons, asked]
    exact ih further (stays (Ne.symm open_.1) running) open_.2

theorem breaks_of_waits (running : w.closed = false) (waits : s.Waits) {skipped : List Request}
    (idle : ∀ r ∈ skipped, r = .hasNext) (after : List Request) :
    (window w (source s)).Breaks (skipped ++ .next :: after) := by
  induction skipped with
  | nil =>
    obtain ⟨v, called, _⟩ := stands.next_waits running waits
    exact .inl ⟨rfl, congrArg Prod.fst called⟩
  | cons request rest ih =>
    obtain rfl := idle request List.mem_cons_self
    exact .inr (ih fun r member => idle r (List.mem_cons_of_mem _ member))

theorem breaks_of_hides (running : w.closed = false) {before skipped : List Request}
    (open_ : Request.close ∉ before) (idle : ∀ r ∈ skipped, r = .hasNext)
    (hides : ((window w (source s)).askAll before).Hides) (after : List Request) :
    (window w (source s)).Breaks (before ++ (.next :: skipped ++ .next :: after)) := by
  obtain ⟨v, t, asked, further, still⟩ := askAll_over stands running open_
  obtain ⟨x, u, called, later, _, stays⟩ := ask_over further .next
  rw [asked] at hides
  have waits : ((window v (source t)).ask .next).Awaits := hides.2
  rw [called] at waits
  apply breaks_of_later
  rw [asked]
  refine .inr ?_
  rw [called]
  exact breaks_of_waits later (stays nofun still) waits idle after

/-- Where the rule is broken although the caller keeps it, either the script waits and
the caller does not know, or a call on the way hides that it does. -/
theorem hides_of_breaks {told : Bool} (running : w.closed = false)
    (obeys : (window w (source s)).Obeys told requests)
    (breaks : (window w (source s)).Breaks requests) :
    (s.Waits ∧ told = false ∧ ∃ skipped after : List Request, requests = skipped ++ .next :: after ∧
        ∀ r ∈ skipped, r = .hasNext) ∨
      ∃ before skipped after : List Request,
        requests = before ++ .next :: skipped ++ .next :: after ∧
        .close ∉ before ∧ (∀ r ∈ skipped, r = .hasNext) ∧
        ((window w (source s)).askAll before).Hides := by
  induction requests generalizing w s told with
  | nil => exact breaks.elim
  | cons request rest ih =>
    obtain ⟨polite, later⟩ := obeys
    cases request with
    | hasNext =>
      have breaks := breaks.resolve_left fun pulled => absurd pulled.1 nofun
      rcases ih stands running later breaks
        with ⟨waits, unaware, skipped, after, rfl, idle⟩ | hidden
      · refine .inl ⟨waits, unaware, .hasNext :: skipped, after, rfl, ?_⟩
        exact List.forall_mem_cons.2 ⟨rfl, idle⟩
      · exact .inr (hides_cons rfl nofun hidden)
    | close =>
      have breaks := breaks.resolve_left fun pulled => absurd pulled.1 nofun
      exact absurd breaks not_breaks_close
    | readiness =>
      obtain ⟨t, asked, further, free⟩ := ask_readiness stands running
      have breaks := breaks.resolve_left fun pulled => absurd pulled.1 nofun
      rw [asked] at later breaks
      rcases ih further running later breaks with ⟨waits, _⟩ | hidden
      · exact absurd waits free
      · exact .inr (hides_cons asked nofun hidden)
    | next =>
      by_cases waits : s.Waits
      · exact .inl ⟨waits, polite rfl, [], rest, rfl, nofun⟩
      · obtain ⟨outcome, v, t, called, further, still, lawful, _⟩ := stands.next_free running waits
        have asked : (window w (source s)).ask .next = window v (source t) :=
          congrArg Prod.snd called
        have breaks := breaks.resolve_left fun pulled => by
          rw [called] at pulled
          exact lawful _ _ pulled.2
        rw [asked] at later breaks
        rcases ih further still later breaks
          with ⟨waits, unaware, skipped, after, rfl, idle⟩ | hidden
        · refine .inr ⟨[], skipped, after, rfl, nofun, idle, ?_⟩
          rw [askAll, List.foldl_nil]
          constructor
          · intro told
            rw [mustWait, told] at unaware
            cases unaware
          · rw [called]
            exact waits
        · exact .inr (hides_cons asked nofun hidden)

/-- With one row for each block, a call that pulls and is told to wait has nothing
else to answer. -/
theorem not_breaks_single {told : Bool} (single : limits.rows ≤ 1)
    (running : w.closed = false) (aware : told = false → ¬ s.Waits)
    (obeys : (window w (source s)).Obeys told requests) :
    ¬ (window w (source s)).Breaks requests := by
  induction requests generalizing w s told with
  | nil => exact id
  | cons request rest ih =>
    obtain ⟨polite, later⟩ := obeys
    rintro (⟨rfl, broken⟩ | breaks)
    · obtain ⟨_, _, _, called, _, _, lawful, _⟩ := stands.next_free running (aware (polite rfl))
      rw [called] at broken
      exact lawful _ _ broken
    cases request with
    | hasNext => exact ih stands running aware later breaks
    | close => exact not_breaks_close breaks
    | readiness =>
      obtain ⟨t, asked, further, free⟩ := ask_readiness stands running
      rw [asked] at later breaks
      exact ih further running (fun _ => free) later breaks
    | next =>
      obtain ⟨outcome, v, t, called, further, still, _, waiting⟩ :=
        stands.next_free running (aware (polite rfl))
      have asked : (window w (source s)).ask .next = window v (source t) := congrArg Prod.snd called
      rw [asked] at later breaks
      refine ih further still (fun unaware waits => ?_) later breaks
      rw [mustWait, called, waiting waits single] at unaware
      cases unaware

end

end Tree

namespace Query
variable {q : Query}

/-- A caller that keeps the rule of pulling towards a window stage makes it break the
rule towards its child exactly if it pulls again, with no check of the readiness in
between, after a call that hid that the child waits. With one row for each block no
call does. -/
theorem breaks_iff_hides {context : Context} {stage : WindowStage} {s : Script}
    (accepted : q.windowStage context s.schema = .ok stage) (asked : s.awaiting = false)
    {requests : List Request}
    (obeys : (Tree.window stage (.source s)).Obeys false requests) :
    ((Tree.window stage (.source s)).Breaks requests ↔
      ∃ before skipped after, requests = before ++ .next :: skipped ++ .next :: after ∧
        .close ∉ before ∧ (∀ r ∈ skipped, r = .hasNext) ∧
        ((Tree.window stage (.source s)).askAll before).Hides) ∧
    (context.limits.rows ≤ 1 → ¬ (Tree.window stage (.source s)).Breaks requests) := by
  obtain ⟨fresh, series, _, _, rfl⟩ := windowStage_eq_ok accepted
  have free : ¬ s.Waits := fun waits => absurd (asked.symm.trans waits.1) nofun
  have stands : WindowStage.Over context.limits
      (.create context fresh (.start series q.scan)) s :=
    ⟨⟨rfl, rfl⟩, fun _ waits => absurd waits free⟩
  refine ⟨⟨fun breaks => ?_, ?_⟩, fun single => ?_⟩
  · exact (Tree.hides_of_breaks stands rfl obeys breaks).resolve_left fun waits => free waits.1
  · rintro ⟨before, skipped, after, rfl, open_, idle, hides⟩
    rw [List.append_assoc]
    exact Tree.breaks_of_hides stands rfl open_ idle hides after
  · exact Tree.not_breaks_single stands single rfl (fun _ => free) obeys

def fourfold : Query where
  aggregations := [⟨.count, .single, [1], none⟩]
  grouping := some ⟨0, 40, .millis 10, none, true⟩
  scan := .ascending
  keepsClipped := true

/-- A row in each window, then a wait, then one more row. -/
def pausing : Script :=
  .create "child" sampleEmpty.schema
    [.answer (.block (sampleBlock [5, 15, 25, 35] [some 1, some 2, some 3, some 4] rfl)),
      .answer .notReady, .answer (.block (sampleBlock [36] [some 5] rfl))] none

/-- With two rows for each block, the third pull comes too early: the second call hides
the wait behind the row of the third window. -/
theorem breaks_iff_hides_pausing :
    ∃ stage, fourfold.windowStage (rowsAtMost 2) pausing.schema = .ok stage ∧
      pausing.awaiting = false ∧
      (Tree.window stage (.source pausing)).Obeys false [.next, .next, .hasNext, .next] ∧
      ((Tree.window stage (.source pausing)).Breaks [.next, .next, .hasNext, .next] ↔
        ∃ before skipped after,
          [.next, .next, .hasNext, .next] = before ++ .next :: skipped ++ .next :: after ∧
            .close ∉ before ∧ (∀ r ∈ skipped, r = .hasNext) ∧
            ((Tree.window stage (.source pausing)).askAll before).Hides) := by
  obtain ⟨stage, accepted, obeys⟩ :
      ∃ stage, fourfold.windowStage (rowsAtMost 2) pausing.schema = .ok stage ∧
        (Tree.window stage (.source pausing)).Obeys false [.next, .next, .hasNext, .next] :=
    ⟨_, rfl, fun _ => rfl, fun _ => rfl, nofun, fun _ => rfl, trivial⟩
  exact ⟨stage, accepted, rfl, obeys, (breaks_iff_hides accepted rfl obeys).1⟩

theorem obeys_breaks_pausing :
    ∃ stage, fourfold.windowStage (rowsAtMost 2) pausing.schema = .ok stage ∧
      (Tree.window stage (.source pausing)).Obeys false [.next, .next, .next] ∧
      (Tree.window stage (.source pausing)).Breaks [.next, .next, .next] := by
  refine ⟨_, rfl, ⟨fun _ => rfl, fun _ => rfl, fun _ => rfl, trivial⟩, ?_⟩
  exact .inr (.inr (.inl ⟨rfl, rfl⟩))

end Query
end WindowFold
