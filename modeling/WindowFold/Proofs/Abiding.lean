import WindowFold.Proofs.Grounds
import WindowFold.Proofs.MergeDeeds

/-! What stages keep to, whatever is asked of them: their aggregators stay such as they
were made, their rows are of the schema that they announce, and a call fails for a child, for
rows out of order or for what an aggregator refuses, and for nothing else. -/
namespace WindowFold

/-- Why a call of a stage fails, where `own` are the failures of its children. -/
inductive Grounds (types : List ScalarType) (fresh : List Aggregator) (own : Failure → Prop) :
    Failure → Prop where
  | child {e : Failure} (failed : own e) : Grounds types fresh own e
  | disorder (scan : Scan) (row : Nat) : Grounds types fresh own (.scanOrder scan row)
  | refused {e : Failure} (refused : Refused types fresh e) : Grounds types fresh own e

section
variable {types : List ScalarType} {fresh : List Aggregator} {own others : Failure → Prop}

theorem Grounds.imp {e : Failure} (grounds : Grounds types fresh own e)
    (weaker : ∀ e, own e → others e) : Grounds types fresh others e := by
  cases grounds with
  | child failed => exact .child (weaker _ failed)
  | disorder scan row => exact .disorder scan row
  | refused refused => exact .refused refused

theorem Block.failsFor_checkScanOrder (block : Block) (scan : Scan) :
    FailsFor (Grounds types fresh own) (block.checkScanOrder scan) := by
  rw [checkScanOrder]
  split
  · exact failsFor_ok _
  · intro e failed
    cases failed
    exact .disorder scan _

end

/-- A new aggregator has not entered any window. -/
theorem Aggregator.enter_of_create {spec : AggregationSpec} {schema : Schema} {scan : Scan}
    {a : Aggregator} (created : create spec schema scan = .ok a) : a.enter .always = a := by
  obtain ⟨_, _, _, _, _, _, fresh, _, rfl⟩ := create_eq_ok.1 created
  rw [enter, Accumulator.reset_of_create fresh]

namespace RowBuffer.Holds
variable {b : RowBuffer} {fresh aggregators : List Aggregator} {rows : List Row}

/-- A buffer of a stage answers, and with blocks of its schema. -/
theorem answer_announced (holds : b.Holds (outputSchema fresh) rows) (more : Bool) :
    ∃ answer c, b.answer more = (.ok answer, c) ∧ (∃ left, c.Holds (outputSchema fresh) left) ∧
      ∀ block, answer = .block block → block.schema = outputSchema fresh := by
  rw [RowBuffer.answer]
  split
  · refine ⟨_, b, rfl, ⟨rows, holds⟩, fun block same => ?_⟩
    split at same <;> cases same
  · obtain ⟨block, c, built, _, schema, cleared⟩ := holds.build outputFields_nullable
    refine ⟨.block block, c, by rw [built]; rfl, ⟨[], cleared⟩, ?_⟩
    intro other same
    cases same
    exact schema

theorem append_entered {range : TimeRange} (holds : b.Holds (outputSchema fresh) rows)
    (entered : Entered fresh range aggregators) (time : Timestamp) :
    ∃ c, b.append time (outputRow aggregators) = .ok c ∧
      c.Holds (outputSchema fresh) (rows ++ [⟨time, outputRow aggregators⟩]) :=
  holds.append time entered.outputRow_types

end RowBuffer.Holds

namespace WindowStage
variable {σ : Type} {hasNext : σ → Except Failure Bool} {types : List ScalarType}
  {fresh aggregators : List Aggregator} {v w : WindowStage} {cached : Option Block}
  {pulled : Attempt σ Answer}

/-- A stage that was made with `fresh` aggregators over a child of these types. -/
structure Sound (types : List ScalarType) (fresh : List Aggregator) (w : WindowStage) : Prop where
  able : ∀ a ∈ fresh, a.Able types w.scan
  schema : w.schema = outputSchema fresh
  entered : ∃ range, Entered fresh range w.aggregators
  kept : Aggregator.Fit types w.scan w.cached.toList
  holds : ∃ rows, w.buffer.Holds (outputSchema fresh) rows

theorem Sound.fill (sound : v.Sound types fresh)
    (keeps : List.Forall₂ Aggregator.Keeps v.aggregators aggregators)
    (fit : Aggregator.Fit types v.scan cached.toList) :
    Sound types fresh { v with aggregators := aggregators, cached := cached } where
  able := sound.able
  schema := sound.schema
  entered := by
    obtain ⟨range, entered⟩ := sound.entered
    exact ⟨range, entered.trans keeps⟩
  kept := fit
  holds := sound.holds

theorem sound_advance (hasNext : σ → Except Failure Bool) (sound : v.Sound types fresh) (c : σ)
    (range : TimeRange) : (v.advance hasNext c range).2.Sound types fresh ∧
      FailsFor (Grounds types fresh fun e => hasNext c = .error e)
        (v.advance hasNext c range).1 := by
  obtain ⟨window, entered⟩ := sound.entered
  have able := entered.able sound.able
  obtain ⟨keeps, fit⟩ := Filling.feed_keeps (f := v.filling)
    (fun a member => (able a member).steady)
    sound.kept range
  have fails := Filling.failsFor_feed (f := v.filling) able sound.kept range
  have nothing : Aggregator.Fit types v.scan (none : Option Block).toList := nofun
  rw [advance, feedCached_eq]
  rcases fed : v.filling.feed v.scan range with ⟨e | done, f⟩
  · rw [fed] at keeps fit fails
    constructor
    · exact sound.fill keeps fit
    · refine (fails.error rfl).imp fun e refused => ?_
      exact .refused (entered.refused refused)
  · rw [fed] at keeps fit
    cases done with
    | true => exact ⟨sound.fill keeps fit, failsFor_ok _⟩
    | false =>
      have after : Sound types fresh { v with aggregators := f.aggregators, cached := none } :=
        sound.fill keeps nothing
      dsimp only
      split
      · exact ⟨after, failsFor_ok _⟩
      split
      next failed =>
        refine ⟨after, fun e same => ?_⟩
        cases same
        exact .child failed
      · exact ⟨after, failsFor_ok _⟩
      · exact ⟨after, failsFor_ok _⟩

theorem Sound.accept {answer : Answer} (sound : v.Sound types fresh)
    (typed : ∀ block, answer = .block block → block.schema.types = types)
    (accepted : v.accept answer = .ok w) : w.Sound types fresh := by
  cases answer with
  | notReady =>
    cases accepted
    exact sound
  | endOfStream =>
    cases accepted
    exact ⟨sound.able, sound.schema, sound.entered, sound.kept, sound.holds⟩
  | block block =>
    rw [WindowStage.accept] at accepted
    split at accepted
    · contradiction
    next checked =>
    cases accepted
    split
    · exact sound
    · refine ⟨sound.able, sound.schema, sound.entered, ?_, sound.holds⟩
      intro b member
      rw [List.mem_singleton.1 member]
      exact ⟨typed block rfl, (block.checkScanOrder_eq_ok_iff v.scan).1 checked⟩

theorem failsFor_accept {own : Failure → Prop} (v : WindowStage) (answer : Answer) :
    FailsFor (Grounds types fresh own) (v.accept answer) := by
  cases answer with
  | notReady | endOfStream => exact failsFor_ok _
  | block block =>
    have checked : FailsFor (Grounds types fresh own) (block.checkScanOrder v.scan) :=
      block.failsFor_checkScanOrder v.scan
    rw [WindowStage.accept]
    split
    next failed => exact checked.error failed
    next => exact failsFor_ok _

/-- Where a call stands: its stage, and why it failed if it did. -/
structure Abides {α : Type} (types : List ScalarType) (fresh : List Aggregator)
    (hasNext : σ → Except Failure Bool) (pulled : Attempt σ Answer) (outcome : Except Failure α)
    (v : WindowStage) (c : σ) : Prop where
  sound : v.Sound types fresh
  fails : FailsFor (Grounds types fresh fun e => pulled.1 = .error e ∨ hasNext c = .error e) outcome

theorem abides_resolve (hasNext : σ → Except Failure Bool) (sound : v.Sound types fresh)
    (typed : ∀ block, pulled.1 = .ok (.block block) → block.schema.types = types) (c : σ)
    (range : TimeRange) :
    Abides types fresh hasNext pulled (v.resolve hasNext (fun _ => pulled) c range).1
      (v.resolve hasNext (fun _ => pulled) c range).2.1
      (v.resolve hasNext (fun _ => pulled) c range).2.2 := by
  obtain ⟨after, fails⟩ := sound_advance hasNext sound c range
  rw [resolve]
  split
  next failed =>
    rw [failed] at after fails
    exact ⟨after, (fails.error rfl).imp fun e grounds => grounds.imp fun _ => .inr⟩
  next done =>
    rw [done] at after
    exact ⟨after, failsFor_ok _⟩
  next u more =>
    rw [more] at after
    dsimp only at after
    split
    · exact ⟨after, failsFor_ok _⟩
    have asked : Sound types fresh { u with mayPull := false } :=
      ⟨after.able, after.schema, after.entered, after.kept, after.holds⟩
    obtain ⟨outcome, d⟩ := pulled
    dsimp only
    cases outcome with
    | error e =>
      refine ⟨asked, fun other same => ?_⟩
      cases same
      exact .child (.inl rfl)
    | ok answer =>
      have accepts : FailsFor (Grounds types fresh fun e =>
          (Except.ok answer : Except Failure Answer) = .error e ∨ hasNext d = .error e)
          ({ u with mayPull := false }.accept answer) := failsFor_accept _ answer
      dsimp only
      split
      next failed => exact ⟨asked, accepts.error failed⟩
      next x taken =>
      have taken := asked.accept (fun block same => typed block (by rw [same])) taken
      obtain ⟨last, again⟩ := sound_advance hasNext taken d range
      split
      next failed =>
        rw [failed] at last again
        exact ⟨last, (again.error rfl).imp fun e grounds => grounds.imp fun _ => .inr⟩
      next done =>
        rw [done] at last
        exact ⟨last, failsFor_ok _⟩

theorem Sound.enterWindow {window : Window} (sound : v.Sound types fresh)
    (entered : v.enterWindow = some (window, w)) : w.Sound types fresh := by
  rw [WindowStage.enterWindow] at entered
  split at entered
  · cases entered
    exact sound
  · obtain ⟨⟨first, cursor⟩, met, same⟩ := Option.map_eq_some_iff.1 entered
    cases same
    have scan : cursor.scan = v.cursor.scan := (Cursor.of_next? met).2
    obtain ⟨range, before⟩ := sound.entered
    constructor
    · intro a member
      rw [WindowStage.scan, scan]
      exact sound.able a member
    · exact sound.schema
    · refine ⟨window.range, ?_⟩
      dsimp only
      rw [before.enterAll_eq]
      exact entered_enterAll fresh window.range
    · rw [WindowStage.scan, scan]
      exact sound.kept
    · exact sound.holds

theorem abides_closeWindows (hasNext : σ → Except Failure Bool) (sound : v.Sound types fresh)
    (typed : ∀ block, pulled.1 = .ok (.block block) → block.schema.types = types) (windows : Nat)
    (c : σ) :
    Abides types fresh hasNext pulled (v.closeWindows hasNext (fun _ => pulled) windows c).1
      (v.closeWindows hasNext (fun _ => pulled) windows c).2.1
      (v.closeWindows hasNext (fun _ => pulled) windows c).2.2 := by
  induction windows generalizing v c with
  | zero => exact ⟨sound, failsFor_ok _⟩
  | succ windows ih =>
    rw [closeWindows]
    split
    · exact ⟨sound, failsFor_ok _⟩
    split
    · exact ⟨sound, failsFor_ok _⟩
    next window u entered =>
    have resolved := abides_resolve hasNext (sound.enterWindow entered) typed c
      window.range
    split
    next failed =>
      rw [failed] at resolved
      exact ⟨resolved.sound, resolved.fails.error rfl⟩
    next waits =>
      rw [waits] at resolved
      exact ⟨resolved.sound, failsFor_ok _⟩
    next x d done =>
      rw [done] at resolved
      have closes := resolved.sound
      obtain ⟨range, within⟩ := closes.entered
      obtain ⟨rows, holds⟩ := closes.holds
      obtain ⟨buffer, appended, filled⟩ := holds.append_entered within window.outputTime
      have next : Sound types fresh { x with active := none, buffer := buffer } :=
        ⟨closes.able, closes.schema, closes.entered, closes.kept, ⟨_, filled⟩⟩
      simp only [appended]
      exact ih next d

/-- A call that fails leaves the stage as sound as one that does not. -/
theorem abides_next (hasNext : σ → Except Failure Bool) (sound : w.Sound types fresh)
    (running : w.closed = false)
    (typed : ∀ block, pulled.1 = .ok (.block block) → block.schema.types = types) (child : σ) :
    Abides types fresh hasNext pulled (w.next hasNext (fun _ => pulled) child).1
      (w.next hasNext (fun _ => pulled) child).2.1 (w.next hasNext (fun _ => pulled) child).2.2 ∧
    ∀ block, (w.next hasNext (fun _ => pulled) child).1 = .ok (.block block) →
      block.schema = outputSchema fresh := by
  have start : Sound types fresh { w with buffer := w.buffer.clear, mayPull := true } := by
    obtain ⟨rows, holds⟩ := sound.holds
    exact ⟨sound.able, sound.schema, sound.entered, sound.kept, ⟨[], holds.clear⟩⟩
  have closes := abides_closeWindows hasNext start typed
    (windowsLeft { w with buffer := w.buffer.clear, mayPull := true }) child
  rw [next, if_neg (by simp [running])]
  dsimp only
  split
  next failed =>
    rw [failed] at closes
    refine ⟨⟨closes.sound, closes.fails.error rfl⟩, fun block same => ?_⟩
    cases same
  next x d done =>
    rw [done] at closes
    have last := closes.sound
    obtain ⟨rows, holds⟩ := last.holds
    obtain ⟨answer, buffer, given, left, schema⟩ := holds.answer_announced x.hasNext
    rw [answer_eq, given]
    constructor
    · exact ⟨⟨last.able, last.schema, last.entered, last.kept, left⟩, failsFor_ok _⟩
    · intro block same
      exact schema block (Except.ok.inj same)

theorem Sound.close (sound : w.Sound types fresh) : w.close.Sound types fresh :=
  ⟨sound.able, sound.schema, sound.entered, nofun, sound.holds⟩

end WindowStage
/-- An inlet whose child gives blocks of these types and fails only as `own` tells. -/
structure Lane.Sound {σ : Type} (types : List ScalarType) (scan : Scan) (own : Failure → Prop)
    (lane : Lane σ) : Prop where
  held : Aggregator.Fit types scan lane.inlet.held.toList
  typed : ∀ s block, (lane.pull s).1 = .ok (.block block) → block.schema.types = types
  fails : ∀ s, FailsFor own (lane.pull s).1

namespace MergeStage
variable {σ : Type} {hasNext : σ → Except Failure Bool} {types : List ScalarType} {scan : Scan}
  {fresh : List Aggregator} {own : Failure → Prop} {m n : MergeStage} {lane : Lane σ}
  {lanes : List (Lane σ)} {window : Window}

/-- A stage that was made with `fresh` aggregators over children of these types. -/
structure Sound (types : List ScalarType) (fresh : List Aggregator) (m : MergeStage) : Prop where
  able : ∀ a ∈ fresh, a.Able types m.scan
  schema : m.schema = outputSchema fresh
  entered : ∃ range, Entered fresh range m.aggregators
  holds : ∃ rows, m.buffer.Holds (outputSchema fresh) rows

/-- A pull of a child fails, or the child fails to tell whether there is more. -/
def Failing (hasNext : σ → Except Failure Bool) (own : Failure → Prop) (lanes : List (Lane σ))
    (e : Failure) : Prop :=
  own e ∨ ∃ lane ∈ lanes, hasNext lane.inlet.child = .error e

theorem Failing.tail {e : Failure} (failing : Failing hasNext own lanes e) :
    Failing hasNext own (lane :: lanes) e := by
  rcases failing with pulled | ⟨other, member, told⟩
  · exact .inl pulled
  · exact .inr ⟨other, List.mem_cons_of_mem _ member, told⟩

theorem fit_taken? {outcome : Except Failure Answer}
    (typed : ∀ block, outcome = .ok (.block block) → block.schema.types = types) :
    Aggregator.Fit types scan (Answer.taken? scan outcome).toList := by
  intro b member
  rw [Option.mem_toList] at member
  unfold Answer.taken? at member
  split at member
  next block =>
    split at member
    · cases member
    split at member
    · cases member
    next checked =>
      cases member
      exact ⟨typed b rfl, (b.checkScanOrder_eq_ok_iff scan).1 checked⟩
  · cases member

theorem failsFor_stops? {outcome : Except Failure Answer} (fails : FailsFor own outcome)
    {reason : Except Failure Bool} (stops : Answer.stops? scan outcome = some reason) :
    FailsFor (Grounds types fresh own) reason := by
  unfold Answer.stops? at stops
  split at stops
  next e =>
    cases stops
    exact (fails.error rfl).imp fun e failed => .child failed
  · cases stops
    exact failsFor_ok _
  · cases stops
  next block =>
    split at stops
    · cases stops
      exact failsFor_ok _
    have checked : FailsFor (Grounds types fresh own) (block.checkScanOrder scan) :=
      block.failsFor_checkScanOrder scan
    split at stops
    next failed =>
      cases stops
      exact checked.error failed
    · cases stops

theorem sound_fill (hasNext : σ → Except Failure Bool) (fresh : List Aggregator)
    (lanes : List (Lane σ)) (sound : lane.Sound types scan own) :
    (lane.fill hasNext scan).2.Sound types scan own ∧
      ∀ reason, (lane.fill hasNext scan).1 = some reason →
        FailsFor (Grounds types fresh (Failing hasNext own ((lane.fill hasNext scan).2 :: lanes)))
          reason := by
  have filling := lane.fills hasNext scan 0
  generalize (lane.fill hasNext scan).1 = stops, (lane.fill hasNext scan).2 = after,
    lane.fillDeeds hasNext 0 = deeds at filling
  cases filling with
  | ready => exact ⟨sound, nofun⟩
  | failed told =>
    refine ⟨sound, fun reason same => ?_⟩
    cases same
    intro e same
    cases same
    exact .child (.inr ⟨lane, List.mem_cons_self, told⟩)
  | noted => exact ⟨⟨sound.held, sound.typed, sound.fails⟩, nofun⟩
  | spent =>
    refine ⟨sound, fun reason same => ?_⟩
    cases same
    exact failsFor_ok _
  | pulled =>
    constructor
    · exact ⟨fit_taken? (sound.typed _), sound.typed, sound.fails⟩
    · intro reason stops
      exact (failsFor_stops? (sound.fails _) stops).imp fun e grounds => grounds.imp fun _ => .inl

theorem sound_prepare (hasNext : σ → Except Failure Bool) (fresh : List Aggregator)
    (sound : ∀ lane ∈ lanes, lane.Sound types scan own) :
    (∀ lane ∈ (prepare hasNext scan lanes).2, lane.Sound types scan own) ∧
      FailsFor (Grounds types fresh (Failing hasNext own (prepare hasNext scan lanes).2))
        (prepare hasNext scan lanes).1 := by
  induction lanes with
  | nil => exact ⟨nofun, failsFor_ok _⟩
  | cons lane rest ih =>
    obtain ⟨others, later⟩ := ih fun other member => sound other (List.mem_cons_of_mem _ member)
    have own_ := sound lane List.mem_cons_self
    rw [prepare_cons]
    rcases filled : lane.fill hasNext scan with ⟨_ | reason, after⟩
    · obtain ⟨first, _⟩ := sound_fill hasNext fresh rest own_
      rw [filled] at first
      constructor
      · intro other member
        rcases List.mem_cons.1 member with rfl | inside
        · exact first
        · exact others other inside
      · exact later.imp fun e grounds => grounds.imp fun _ => Failing.tail
    · obtain ⟨first, stops⟩ := sound_fill hasNext fresh rest own_
      rw [filled] at first stops
      constructor
      · intro other member
        rcases List.mem_cons.1 member with rfl | inside
        · exact first
        · exact sound other (List.mem_cons_of_mem _ inside)
      · exact stops reason rfl

theorem Sound.enterWindow (sound : m.Sound types fresh)
    (entered : m.enterWindow = some (window, n)) : n.Sound types fresh ∧ n.scan = m.scan := by
  have scan := scan_enterWindow entered
  refine ⟨?_, scan⟩
  rw [MergeStage.enterWindow] at entered
  split at entered
  · cases entered
    exact sound
  · obtain ⟨⟨first, cursor⟩, met, same⟩ := Option.map_eq_some_iff.1 entered
    cases same
    obtain ⟨range, before⟩ := sound.entered
    constructor
    · rw [scan]
      exact sound.able
    · exact sound.schema
    · refine ⟨window.range, ?_⟩
      dsimp only
      rw [before.enterAll_eq]
      exact entered_enterAll fresh window.range
    · exact sound.holds

theorem fit_lanes (sound : ∀ lane ∈ lanes, lane.Sound types scan own) :
    Aggregator.Fit types scan (lanes.filterMap (·.inlet.held)) := by
  intro block member
  obtain ⟨lane, inside, held⟩ := List.mem_filterMap.1 member
  exact (sound lane inside).held block (Option.mem_toList.2 held)

theorem sound_skipPast (sound : lane.Sound types scan own) (range : TimeRange) :
    Lane.Sound types scan own { lane with inlet := lane.inlet.skipPast range scan } := by
  have fit : (Queue.mk lane.inlet.held []).Fit types scan := by
    rw [Queue.Fit, List.append_nil]
    exact sound.held
  have rest := fit.skipPast range
  rw [Queue.Fit, Queue.skipPast, List.append_nil] at rest
  exact ⟨rest, sound.typed, sound.fails⟩

theorem sound_closeWindow (sound : m.Sound types fresh)
    (each : ∀ lane ∈ lanes, lane.Sound types m.scan own) (window : Window) :
    (m.closeWindow lanes window).2.1.Sound types fresh ∧
      (m.closeWindow lanes window).2.1.scan = m.scan ∧
      (∀ lane ∈ (m.closeWindow lanes window).2.2, lane.Sound types m.scan own) ∧
      FailsFor (Refused types fresh) (m.closeWindow lanes window).1 := by
  obtain ⟨range, entered⟩ := sound.entered
  obtain ⟨fails, keeps⟩ := feedAll_able (entered.able sound.able) (fit_lanes each)
  rw [closeWindow]
  split
  next failed =>
    rw [failed] at fails keeps
    refine ⟨⟨sound.able, sound.schema, ⟨range, entered.trans keeps⟩, sound.holds⟩, rfl, each, ?_⟩
    exact (fails.error rfl).imp fun e => entered.refused
  next after fed =>
    rw [fed] at keeps
    obtain ⟨rows, holds⟩ := sound.holds
    obtain ⟨buffer, appended, filled⟩ :=
      holds.append_entered (entered.trans keeps) window.outputTime
    dsimp only
    rw [appended]
    refine ⟨⟨sound.able, sound.schema, ⟨range, entered.trans keeps⟩, ⟨_, filled⟩⟩, rfl, ?_,
      failsFor_ok _⟩
    intro lane member
    obtain ⟨before, inside, rfl⟩ := List.mem_map.1 member
    exact sound_skipPast (each before inside) window.range

/-- Where a call stands: its stage and its inlets, and why it failed if it did. -/
structure Abides {α : Type} (types : List ScalarType) (scan : Scan) (fresh : List Aggregator)
    (hasNext : σ → Except Failure Bool) (own : Failure → Prop) (outcome : Except Failure α)
    (m : MergeStage) (lanes : List (Lane σ)) : Prop where
  sound : m.Sound types fresh
  same : m.scan = scan
  each : ∀ lane ∈ lanes, lane.Sound types scan own
  fails : FailsFor (Grounds types fresh (Failing hasNext own lanes)) outcome

theorem abides_closeWindows (hasNext : σ → Except Failure Bool) (sound : m.Sound types fresh)
    (same : m.scan = scan) (each : ∀ lane ∈ lanes, lane.Sound types scan own) (windows : Nat) :
    Abides types scan fresh hasNext own (m.closeWindows hasNext windows lanes).1
      (m.closeWindows hasNext windows lanes).2.1 (m.closeWindows hasNext windows lanes).2.2 := by
  induction windows generalizing m lanes with
  | zero => exact ⟨sound, same, each, failsFor_ok _⟩
  | succ windows ih =>
    obtain ⟨filled, fails⟩ := sound_prepare hasNext fresh each
    rw [closeWindows, same]
    split
    · exact ⟨sound, same, each, failsFor_ok _⟩
    split
    next failed =>
      rw [failed] at filled fails
      exact ⟨sound, same, filled, fails.error rfl⟩
    next waits =>
      rw [waits] at filled
      exact ⟨sound, same, filled, failsFor_ok _⟩
    next ready =>
      rw [ready] at filled
      split
      · exact ⟨sound, same, filled, failsFor_ok _⟩
      next window n entered =>
      obtain ⟨enters, still⟩ := sound.enterWindow entered
      have scan_ : n.scan = scan := still.trans same
      obtain ⟨closed, stays, used, refused⟩ :=
        sound_closeWindow enters (by rw [scan_]; exact filled) window
      rw [scan_] at stays used
      split
      next failed =>
        rw [failed] at closed stays used refused
        exact ⟨closed, stays, used, (refused.error rfl).imp fun e => .refused⟩
      next done =>
        rw [done] at closed stays used
        exact ih closed stays used

theorem abides_next (hasNext : σ → Except Failure Bool) (sound : m.Sound types fresh)
    (running : m.closed = false) (each : ∀ lane ∈ lanes, lane.Sound types m.scan own) :
    (m.next hasNext lanes).2.1.Sound types fresh ∧ (m.next hasNext lanes).2.1.scan = m.scan ∧
      (∀ inlet ∈ (m.next hasNext lanes).2.2, Aggregator.Fit types m.scan inlet.held.toList) ∧
      FailsFor (Grounds types fresh fun e => own e ∨
        ∃ inlet ∈ (m.next hasNext lanes).2.2, hasNext inlet.child = .error e)
        (m.next hasNext lanes).1 ∧
      ∀ block, (m.next hasNext lanes).1 = .ok (.block block) →
        block.schema = outputSchema fresh := by
  have start : Sound types fresh m.anew := by
    obtain ⟨rows, holds⟩ := sound.holds
    exact ⟨sound.able, sound.schema, sound.entered, ⟨[], holds.clear⟩⟩
  have anew : ∀ lane ∈ lanes.map Lane.anew, lane.Sound types m.scan own := by
    intro lane member
    obtain ⟨before, inside, rfl⟩ := List.mem_map.1 member
    have sound := each before inside
    exact ⟨sound.held, sound.typed, sound.fails⟩
  have closes := abides_closeWindows hasNext start rfl anew m.anew.windowsLeft
  have inlets : ∀ {after : List (Lane σ)}, (∀ lane ∈ after, lane.Sound types m.scan own) →
      ∀ inlet ∈ after.map (·.inlet), Aggregator.Fit types m.scan inlet.held.toList := by
    intro after each inlet member
    obtain ⟨lane, inside, rfl⟩ := List.mem_map.1 member
    exact (each lane inside).held
  rw [next_eq running]
  split
  next failed =>
    rw [failed] at closes
    refine ⟨closes.sound, closes.same, inlets closes.each, ?_, fun block same => ?_⟩
    · refine (closes.fails.error rfl).imp fun e grounds => grounds.imp ?_
      rintro e (pulled | ⟨lane, member, told⟩)
      · exact .inl pulled
      · exact .inr ⟨lane.inlet, List.mem_map_of_mem member, told⟩
    · cases same
  next n others done =>
    rw [done] at closes
    obtain ⟨rows, holds⟩ := closes.sound.holds
    obtain ⟨answer, buffer, given, left, schema⟩ := holds.answer_announced n.hasNext
    rw [answer_eq, given]
    refine ⟨⟨closes.sound.able, closes.sound.schema, closes.sound.entered, left⟩, closes.same,
      inlets closes.each, failsFor_ok _, ?_⟩
    intro block same
    exact schema block (Except.ok.inj same)

theorem Sound.close (sound : m.Sound types fresh) : m.close.Sound types fresh :=
  ⟨sound.able, sound.schema, sound.entered, sound.holds⟩

end MergeStage
end WindowFold
