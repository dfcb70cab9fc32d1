import WindowFold.Proofs.Recording
import WindowFold.Proofs.Requests

/-! What a merge does in a call, deed by deed: it pulls children to fill its inlets,
and it computes windows from what the inlets hold. -/
namespace WindowFold
variable {σ : Type}

/-- What a merge does with its children. -/
inductive Deed (σ : Type) where
  /-- Pulls the child in a place; with its inlet at that moment, and the answer. -/
  | pulled (place : Nat) (inlet : Inlet σ) (answer : Except Failure Answer)
  /-- Computes a window from the inlets, and closes it unless an aggregation fails. -/
  | computed (window : Window) (inlets : List (Inlet σ)) (closes : Bool)

def Deed.pulls (place : Nat) : Deed σ → Bool
  | pulled other _ _ => other = place
  | computed .. => false

def Deed.IsPull : Deed σ → Prop
  | pulled .. => True
  | computed .. => False

/-- A block that an inlet takes in: it has rows, and they are in scan order. -/
def Answer.taken? (scan : Scan) : Except Failure Answer → Option Block
  | .ok (.block b) =>
    if b.isEmpty then none
    else
      match b.checkScanOrder scan with
      | .error _ => none
      | .ok () => some b
  | _ => none

/-- Why no further child is pulled after an answer, if that is so. -/
def Answer.stops? (scan : Scan) : Except Failure Answer → Option (Except Failure Bool)
  | .error e => some (.error e)
  | .ok .notReady => some (.ok false)
  | .ok .endOfStream => none
  | .ok (.block b) =>
    if b.isEmpty then some (.ok false)
    else
      match b.checkScanOrder scan with
      | .error e => some (.error e)
      | .ok () => none

namespace Inlet

/-- What the answer of its child makes of an inlet that holds nothing. -/
def given (scan : Scan) (pulled : Attempt σ Answer) : Inlet σ where
  child := pulled.2
  held := Answer.taken? scan pulled.1
  mayPull := false
  ended := match pulled.1 with
    | .ok .endOfStream => true
    | _ => false

/-- It needs nothing for the next window. -/
def Ready (inlet : Inlet σ) : Prop := inlet.held.isSome ∨ inlet.ended

end Inlet

namespace Lane
variable (hasNext : σ → Except Failure Bool) (scan : Scan)

/-- Fills the inlet if it holds nothing; with the reason to stop there, if any. -/
def fill (lane : Lane σ) : Option (Except Failure Bool) × Lane σ :=
  if lane.inlet.held.isSome || lane.inlet.ended then (none, lane)
  else
    match hasNext lane.inlet.child with
    | .error e => (some (.error e), lane)
    | .ok false => (none, { lane with inlet := { lane.inlet with ended := true } })
    | .ok true =>
      if !lane.inlet.mayPull then (some (.ok false), lane)
      else
        (Answer.stops? scan (lane.pull lane.inlet.child).1,
          { lane with inlet := .given scan (lane.pull lane.inlet.child) })

def fillDeeds (place : Nat) (lane : Lane σ) : List (Deed σ) :=
  if lane.inlet.held.isSome || lane.inlet.ended then []
  else
    match hasNext lane.inlet.child with
    | .ok true =>
      if lane.inlet.mayPull then
        [.pulled place lane.inlet (lane.pull lane.inlet.child).1]
      else []
    | _ => []

/-- The lane at the start of a call. -/
def anew (lane : Lane σ) : Lane σ := { lane with inlet := { lane.inlet with mayPull := true } }

/-- How an inlet is filled: with the reason to stop there, the lane after it, and what
is done. -/
inductive Fills (lane : Lane σ) (place : Nat) :
    Option (Except Failure Bool) → Lane σ → List (Deed σ) → Prop where
  | ready (ready : lane.inlet.Ready) : Fills lane place none lane []
  | failed {e : Failure} (told : hasNext lane.inlet.child = .error e) :
      Fills lane place (some (.error e)) lane []
  | noted (empty : lane.inlet.held = none) (going : lane.inlet.ended = false)
      (last : hasNext lane.inlet.child = .ok false) :
      Fills lane place none { lane with inlet := { lane.inlet with ended := true } } []
  | spent (may : lane.inlet.mayPull = false) : Fills lane place (some (.ok false)) lane []
  | pulled (empty : lane.inlet.held = none) (going : lane.inlet.ended = false)
      (more : hasNext lane.inlet.child = .ok true) (may : lane.inlet.mayPull = true) :
      Fills lane place (Answer.stops? scan (lane.pull lane.inlet.child).1)
        { lane with inlet := .given scan (lane.pull lane.inlet.child) }
        [.pulled place lane.inlet (lane.pull lane.inlet.child).1]

theorem fills (lane : Lane σ) (place : Nat) :
    Fills hasNext scan lane place (lane.fill hasNext scan).1 (lane.fill hasNext scan).2
      (lane.fillDeeds hasNext place) := by
  rw [fill, fillDeeds]
  split
  next full => exact .ready (by simpa [Inlet.Ready] using full)
  next empty =>
  rw [Bool.not_eq_true, Bool.or_eq_false_iff, Option.isSome_eq_false_iff,
    Option.isNone_iff_eq_none] at empty
  obtain ⟨held, going⟩ := empty
  cases told : hasNext lane.inlet.child with
  | error e => exact .failed told
  | ok more =>
    cases more with
    | false => exact .noted held going told
    | true =>
      cases may : lane.inlet.mayPull with
      | false => exact .spent may
      | true => exact .pulled held going told may

theorem Fills.isPull {hasNext : σ → Except Failure Bool} {scan : Scan} {lane x : Lane σ}
    {place : Nat} {outcome : Option (Except Failure Bool)} {deeds : List (Deed σ)}
    (fills : Fills hasNext scan lane place outcome x deeds) : ∀ deed ∈ deeds, deed.IsPull := by
  intro deed member
  cases fills with
  | pulled =>
    obtain rfl := List.mem_singleton.1 member
    exact trivial
  | ready | failed | noted | spent => cases member

end Lane

namespace MergeStage
variable {hasNext : σ → Except Failure Bool} {scan : Scan} {m n : MergeStage}
  {lane : Lane σ} {lanes : List (Lane σ)} {window : Window}

/-- The stage at the start of a call. -/
def anew (m : MergeStage) : MergeStage := { m with buffer := m.buffer.clear }

theorem prepare_cons (hasNext : σ → Except Failure Bool) (scan : Scan) (lane : Lane σ)
    (lanes : List (Lane σ)) : prepare hasNext scan (lane :: lanes) =
      match lane.fill hasNext scan with
      | (some outcome, lane) => (outcome, lane :: lanes)
      | (none, lane) =>
        ((prepare hasNext scan lanes).1, lane :: (prepare hasNext scan lanes).2) := by
  obtain ⟨⟨child, held, mayPull, ended⟩, pull⟩ := lane
  rw [prepare, Lane.fill]
  dsimp only
  split
  · rfl
  next empty =>
  rw [Bool.not_eq_true, Bool.or_eq_false_iff, Option.isSome_eq_false_iff,
    Option.isNone_iff_eq_none] at empty
  obtain ⟨rfl, rfl⟩ := empty
  rcases hasNext child with e | _ | _
  · rfl
  · rfl
  dsimp only
  split
  · rfl
  rcases pull child with ⟨e | b | _ | _, after⟩
  · rfl
  · simp only [Answer.stops?, Inlet.given, Answer.taken?]
    split
    · rfl
    · cases b.checkScanOrder scan <;> rfl
  · rfl
  · rfl

theorem next_eq (running : m.closed = false) (lanes : List (Lane σ)) :
    m.next hasNext lanes =
      match m.anew.closeWindows hasNext m.anew.windowsLeft (lanes.map Lane.anew) with
      | (.error e, n, filled) => (.error e, n, filled.map (·.inlet))
      | (.ok (), n, filled) => (n.answer.1, n.answer.2, filled.map (·.inlet)) := by
  rw [next, if_neg (by simp [running])]
  rfl

def prepareDeeds (hasNext : σ → Except Failure Bool) (scan : Scan) :
    (place : Nat) → List (Lane σ) → List (Deed σ)
  | _, [] => []
  | place, lane :: rest =>
    lane.fillDeeds hasNext place ++
      match (lane.fill hasNext scan).1 with
      | none => prepareDeeds hasNext scan (place + 1) rest
      | some _ => []

/-- The aggregations can take in what the inlets hold. -/
def computes (m : MergeStage) (lanes : List (Lane σ)) : Bool :=
  match (feedAll (lanes.filterMap (·.inlet.held)) m.aggregators).1 with
  | .ok () => true
  | .error _ => false

def deedsWithin (hasNext : σ → Except Failure Bool) :
    (windows : Nat) → MergeStage → List (Lane σ) → List (Deed σ)
  | 0, _, _ => []
  | windows + 1, m, lanes =>
    if m.buffer.isFull then []
    else
      prepareDeeds hasNext m.scan 0 lanes ++
        match prepare hasNext m.scan lanes with
        | (.ok true, lanes) =>
          match m.enterWindow with
          | none => []
          | some (window, m) =>
            .computed window (lanes.map (·.inlet)) (m.computes lanes) ::
              match m.closeWindow lanes window with
              | (.ok (), m, lanes) => deedsWithin hasNext windows m lanes
              | _ => []
        | _ => []

def deeds (hasNext : σ → Except Failure Bool) (m : MergeStage) (lanes : List (Lane σ)) :
    List (Deed σ) :=
  if m.closed then []
  else m.anew.deedsWithin hasNext m.anew.windowsLeft (lanes.map Lane.anew)

/-- A single act of a merge on its lanes, and what is done by it. -/
inductive Act (hasNext : σ → Except Failure Bool) (scan : Scan) :
    List (Lane σ) → List (Deed σ) → List (Lane σ) → Prop where
  /-- A child that tells that nothing comes has ended. -/
  | noted {lanes : List (Lane σ)} {place : Nat} {lane : Lane σ} (at_ : lanes[place]? = some lane)
      (empty : lane.inlet.held = none) (going : lane.inlet.ended = false)
      (last : hasNext lane.inlet.child = .ok false) :
      Act hasNext scan lanes []
        (lanes.set place { lane with inlet := { lane.inlet with ended := true } })
  /-- A child that tells that more comes is pulled. -/
  | pulled {lanes : List (Lane σ)} {place : Nat} {lane : Lane σ} (at_ : lanes[place]? = some lane)
      (empty : lane.inlet.held = none) (going : lane.inlet.ended = false)
      (more : hasNext lane.inlet.child = .ok true) (may : lane.inlet.mayPull = true) :
      Act hasNext scan lanes [.pulled place lane.inlet (lane.pull lane.inlet.child).1]
        (lanes.set place { lane with inlet := .given scan (lane.pull lane.inlet.child) })
  /-- A window is computed; rows up to its end are used if it is closed. -/
  | computed {lanes : List (Lane σ)} (window : Window) (closes : Bool)
      (ready : ∀ lane ∈ lanes, lane.inlet.Ready) :
      Act hasNext scan lanes [.computed window (lanes.map (·.inlet)) closes]
        (if closes then
          lanes.map fun lane => { lane with inlet := lane.inlet.skipPast window.range scan }
        else lanes)

inductive Course (hasNext : σ → Except Failure Bool) (scan : Scan) :
    List (Lane σ) → List (Deed σ) → List (Lane σ) → Prop where
  | idle (lanes : List (Lane σ)) : Course hasNext scan lanes [] lanes
  | act {lanes between after : List (Lane σ)} {first rest : List (Deed σ)}
      (head : Act hasNext scan lanes first between)
      (tail : Course hasNext scan between rest after) :
      Course hasNext scan lanes (first ++ rest) after

namespace Course
variable {lanes between after : List (Lane σ)} {first rest : List (Deed σ)}

theorem single (act : Act hasNext scan lanes first after) :
    Course hasNext scan lanes first after := by
  have course := Course.act act (.idle after)
  rwa [List.append_nil] at course

theorem trans (head : Course hasNext scan lanes first between)
    (tail : Course hasNext scan between rest after) :
    Course hasNext scan lanes (first ++ rest) after := by
  induction head with
  | idle => exact tail
  | act step _ ih =>
    rw [List.append_assoc]
    exact .act step (ih tail)

end Course

/-- One lane among others is filled. -/
theorem fill_course (hasNext : σ → Except Failure Bool) (scan : Scan)
    (before after : List (Lane σ)) (lane : Lane σ) :
    Course hasNext scan (before ++ lane :: after) (lane.fillDeeds hasNext before.length)
      (before ++ (lane.fill hasNext scan).2 :: after) := by
  have at_ : (before ++ lane :: after)[before.length]? = some lane := by simp
  have put : ∀ x, (before ++ lane :: after).set before.length x = before ++ x :: after := by simp
  have fills := lane.fills hasNext scan before.length
  generalize lane.fill hasNext scan = filled, lane.fillDeeds hasNext before.length = deeds
    at fills ⊢
  obtain ⟨outcome, x⟩ := filled
  cases fills with
  | ready | failed | spent => exact .idle _
  | noted empty going last =>
    have noted : Course hasNext scan _ _ _ := .single (.noted at_ empty going last)
    rwa [put] at noted
  | pulled empty going more may =>
    have pulled : Course hasNext scan _ _ _ := .single (.pulled at_ empty going more may)
    rwa [put] at pulled

theorem prepare_course (hasNext : σ → Except Failure Bool) (scan : Scan)
    (before lanes : List (Lane σ)) :
    Course hasNext scan (before ++ lanes) (prepareDeeds hasNext scan before.length lanes)
      (before ++ (prepare hasNext scan lanes).2) := by
  induction lanes generalizing before with
  | nil => exact .idle _
  | cons lane rest ih =>
    have first := fill_course hasNext scan before rest lane
    rw [prepare_cons, prepareDeeds]
    rcases filled : lane.fill hasNext scan with ⟨_ | outcome, x⟩
    · rw [filled] at first
      refine first.trans ?_
      have later := ih (before ++ [x])
      simpa using later
    · rw [filled] at first
      rw [List.append_nil]
      exact first

theorem given_ready {pulled : Attempt σ Answer} (goesOn : Answer.stops? scan pulled.1 = none) :
    (Inlet.given scan pulled).Ready := by
  obtain ⟨e | b | _ | _, child⟩ := pulled
  · cases goesOn
  · simp only [Answer.stops?] at goesOn
    split at goesOn
    · cases goesOn
    next some_ =>
    split at goesOn
    · cases goesOn
    next fine => exact .inl (by simp [Inlet.given, Answer.taken?, some_, fine])
  · cases goesOn
  · exact .inr rfl

theorem fill_ready (filled : (lane.fill hasNext scan).1 = none) :
    (lane.fill hasNext scan).2.inlet.Ready := by
  have fills := lane.fills hasNext scan 0
  generalize lane.fill hasNext scan = after, lane.fillDeeds hasNext 0 = deeds at fills filled ⊢
  obtain ⟨outcome, x⟩ := after
  cases fills with
  | ready ready => exact ready
  | failed | spent => cases filled
  | noted => exact .inr rfl
  | pulled => exact given_ready filled

theorem stops?_ne (scan : Scan) (answer : Except Failure Answer) :
    Answer.stops? scan answer ≠ some (.ok true) := by
  rcases answer with e | b | _ | _
  · nofun
  · rw [Answer.stops?]
    split
    · nofun
    · split <;> nofun
  · nofun
  · nofun

theorem fill_ne (hasNext : σ → Except Failure Bool) (scan : Scan) (lane : Lane σ) :
    (lane.fill hasNext scan).1 ≠ some (.ok true) := by
  have fills := lane.fills hasNext scan 0
  generalize lane.fill hasNext scan = after, lane.fillDeeds hasNext 0 = deeds at fills ⊢
  obtain ⟨outcome, x⟩ := after
  cases fills with
  | ready | noted | failed | spent => nofun
  | pulled => exact stops?_ne _ _

/-- Once all inlets are filled none of them needs anything. -/
theorem prepare_ready (prepared : (prepare hasNext scan lanes).1 = .ok true) :
    ∀ lane ∈ (prepare hasNext scan lanes).2, lane.inlet.Ready := by
  induction lanes with
  | nil => exact nofun
  | cons lane rest ih =>
    have ready : (lane.fill hasNext scan).1 = none → (lane.fill hasNext scan).2.inlet.Ready :=
      fill_ready
    have further := fill_ne hasNext scan lane
    rw [prepare_cons] at prepared ⊢
    generalize lane.fill hasNext scan = filled at ready further prepared ⊢
    obtain ⟨_ | outcome, x⟩ := filled
    · exact List.forall_mem_cons.2 ⟨ready rfl, ih prepared⟩
    · exact absurd (congrArg some prepared) further

theorem scan_enterWindow (entered : m.enterWindow = some (window, n)) : n.scan = m.scan := by
  rw [enterWindow] at entered
  split at entered
  · cases entered
    rfl
  obtain ⟨⟨first, cursor⟩, met, same⟩ := Option.map_eq_some_iff.1 entered
  cases same
  exact (Cursor.of_next? met).2

theorem closeWindow_course (hasNext : σ → Except Failure Bool) (m : MergeStage) (window : Window)
    (ready : ∀ lane ∈ lanes, lane.inlet.Ready) :
    Course hasNext m.scan lanes [.computed window (lanes.map (·.inlet)) (m.computes lanes)]
      (m.closeWindow lanes window).2.2 := by
  have computed : Course hasNext m.scan _ _ _ :=
    .single (.computed window (m.computes lanes) ready)
  have after : (m.closeWindow lanes window).2.2 =
      if m.computes lanes then
        lanes.map fun lane => { lane with inlet := lane.inlet.skipPast window.range m.scan }
      else lanes := by
    rw [closeWindow, computes]
    generalize feedAll (lanes.filterMap (·.inlet.held)) m.aggregators = fed
    obtain ⟨e | _, aggregators⟩ := fed
    · rfl
    dsimp only
    split <;> rfl
  rw [after]
  exact computed

theorem closeWindow_frame (m : MergeStage) (lanes : List (Lane σ)) (window : Window) :
    (m.closeWindow lanes window).2.1.scan = m.scan ∧
      (m.closeWindow lanes window).2.1.closed = m.closed := by
  rw [closeWindow]
  split
  · exact ⟨rfl, rfl⟩
  · dsimp only
    split <;> exact ⟨rfl, rfl⟩

theorem isPull_prepareDeeds (hasNext : σ → Except Failure Bool) (scan : Scan) (place : Nat)
    (lanes : List (Lane σ)) : ∀ deed ∈ prepareDeeds hasNext scan place lanes, deed.IsPull := by
  induction lanes generalizing place with
  | nil => exact List.forall_mem_nil _
  | cons lane rest ih =>
    have fills := lane.fills hasNext scan place
    rw [prepareDeeds]
    generalize lane.fill hasNext scan = filled, lane.fillDeeds hasNext place = deeds at fills ⊢
    obtain ⟨outcome, x⟩ := filled
    refine List.forall_mem_append.2 ⟨fills.isPull, ?_⟩
    cases outcome with
    | none => exact ih (place + 1)
    | some => exact List.forall_mem_nil _

/-- A round of a call: the inlets are filled as far as they can be and, once none of them
needs anything, the next window is computed from what they hold. -/
inductive Round (hasNext : σ → Except Failure Bool) (m : MergeStage) (lanes : List (Lane σ)) :
    List (Deed σ) → Except Failure Unit → MergeStage → List (Lane σ) → Prop where
  | filled {pulls : List (Deed σ)} {filled : List (Lane σ)} {outcome : Except Failure Unit}
      (fills : Course hasNext m.scan lanes pulls filled) (only : ∀ deed ∈ pulls, deed.IsPull) :
      Round hasNext m lanes pulls outcome m filled
  | computed {pulls : List (Deed σ)} {filled : List (Lane σ)} {window : Window} {n : MergeStage}
      (fills : Course hasNext m.scan lanes pulls filled) (only : ∀ deed ∈ pulls, deed.IsPull)
      (ready : ∀ lane ∈ filled, lane.inlet.Ready) (entered : m.enterWindow = some (window, n)) :
      Round hasNext m lanes
        (pulls ++ [.computed window (filled.map (·.inlet)) (n.computes filled)])
        (n.closeWindow filled window).1 (n.closeWindow filled window).2.1
        (n.closeWindow filled window).2.2

inductive Rounds (hasNext : σ → Except Failure Bool) : MergeStage → List (Lane σ) →
    List (Deed σ) → Except Failure Unit → MergeStage → List (Lane σ) → Prop where
  | last {m n : MergeStage} {lanes after : List (Lane σ)} {deeds : List (Deed σ)}
      {outcome : Except Failure Unit} (round : Round hasNext m lanes deeds outcome n after) :
      Rounds hasNext m lanes deeds outcome n after
  | more {m n o : MergeStage} {lanes between after : List (Lane σ)} {first rest : List (Deed σ)}
      {outcome : Except Failure Unit} (round : Round hasNext m lanes first (.ok ()) n between)
      (later : Rounds hasNext n between rest outcome o after) :
      Rounds hasNext m lanes (first ++ rest) outcome o after

section
variable {after : List (Lane σ)} {deeds : List (Deed σ)} {outcome : Except Failure Unit}

theorem Round.course (round : Round hasNext m lanes deeds outcome n after) :
    Course hasNext m.scan lanes deeds after ∧ n.scan = m.scan ∧ n.closed = m.closed := by
  cases round with
  | filled fills => exact ⟨fills, rfl, rfl⟩
  | @computed _ filled window o fills _ ready entered =>
    have closing := closeWindow_course hasNext o window ready
    obtain ⟨scan, closed⟩ := o.closeWindow_frame filled window
    rw [scan_enterWindow entered] at closing scan
    exact ⟨fills.trans closing, scan, closed.trans (enterWindow_frame entered)⟩

theorem Rounds.course (rounds : Rounds hasNext m lanes deeds outcome n after) :
    Course hasNext m.scan lanes deeds after ∧ n.scan = m.scan ∧ n.closed = m.closed := by
  induction rounds with
  | last round => exact round.course
  | more round _ ih =>
    obtain ⟨first, scan, closed⟩ := round.course
    obtain ⟨later, same, still⟩ := ih
    rw [scan] at later
    exact ⟨first.trans later, same.trans scan, still.trans closed⟩

end

theorem rounds_closeWindows (hasNext : σ → Except Failure Bool) (windows : Nat) (m : MergeStage)
    (lanes : List (Lane σ)) : Rounds hasNext m lanes (m.deedsWithin hasNext windows lanes)
      (m.closeWindows hasNext windows lanes).1 (m.closeWindows hasNext windows lanes).2.1
      (m.closeWindows hasNext windows lanes).2.2 := by
  induction windows generalizing m lanes with
  | zero =>
    rw [closeWindows, deedsWithin]
    exact .last (.filled (.idle lanes) (List.forall_mem_nil _))
  | succ windows ih =>
    rw [closeWindows, deedsWithin]
    split
    · exact .last (.filled (.idle lanes) (List.forall_mem_nil _))
    have filling := prepare_course hasNext m.scan [] lanes
    have only := isPull_prepareDeeds hasNext m.scan 0 lanes
    have ready : (prepare hasNext m.scan lanes).1 = .ok true →
        ∀ lane ∈ (prepare hasNext m.scan lanes).2, lane.inlet.Ready := prepare_ready
    simp only [List.nil_append, List.length_nil] at filling
    generalize prepare hasNext m.scan lanes = prepared,
      prepareDeeds hasNext m.scan 0 lanes = pulls at filling only ready ⊢
    obtain ⟨e | _ | _, filled⟩ := prepared
    · rw [List.append_nil]
      exact .last (.filled filling only)
    · rw [List.append_nil]
      exact .last (.filled filling only)
    dsimp only
    rcases entered : m.enterWindow with _ | ⟨window, n⟩
    · rw [List.append_nil]
      exact .last (.filled filling only)
    have round := Round.computed filling only (ready rfl) entered
    dsimp only at round ⊢
    rw [List.append_cons]
    generalize n.closeWindow filled window = made at round ⊢
    obtain ⟨e | _, x, used⟩ := made
    · rw [List.append_nil]
      exact .last round
    · exact .more round (ih x used)

/-- The answer to a call, once it has closed what windows it can. -/
def answered : Attempt (MergeStage × List (Lane σ)) Unit →
    Attempt (MergeStage × List (Inlet σ)) Answer
  | (.error e, m, lanes) => (.error e, m, lanes.map (·.inlet))
  | (.ok (), m, lanes) => (m.answer.1, m.answer.2, lanes.map (·.inlet))

theorem exists_rounds (running : m.closed = false) (hasNext : σ → Except Failure Bool)
    (lanes : List (Lane σ)) : ∃ outcome n filled,
      Rounds hasNext m.anew (lanes.map Lane.anew) (m.deeds hasNext lanes) outcome n filled ∧
        m.next hasNext lanes = answered (outcome, n, filled) := by
  have rounds := rounds_closeWindows hasNext m.anew.windowsLeft m.anew (lanes.map Lane.anew)
  rw [deeds, if_neg (by simp [running]), next_eq running]
  generalize m.anew.closeWindows hasNext m.anew.windowsLeft (lanes.map Lane.anew) = closing
    at rounds ⊢
  obtain ⟨e | _, n, filled⟩ := closing
  · exact ⟨_, n, filled, rounds, rfl⟩
  · exact ⟨_, n, filled, rounds, rfl⟩

theorem next_course (running : m.closed = false) (hasNext : σ → Except Failure Bool)
    (lanes : List (Lane σ)) :
    ∃ after, Course hasNext m.scan (lanes.map Lane.anew) (m.deeds hasNext lanes) after ∧
      (m.next hasNext lanes).2.2 = after.map (·.inlet) ∧
      (m.next hasNext lanes).2.1.scan = m.scan ∧ (m.next hasNext lanes).2.1.closed = false := by
  obtain ⟨outcome, n, filled, rounds, called⟩ := exists_rounds running hasNext lanes
  obtain ⟨course, scan, closed⟩ := rounds.course
  refine ⟨filled, course, ?_⟩
  rw [called]
  cases outcome with
  | error e => exact ⟨rfl, scan, closed.trans running⟩
  | ok =>
    rw [answered, answer_eq]
    exact ⟨rfl, scan, closed.trans running⟩

/-- Lanes over the same inlet, with children that answer alike as long as they may be
pulled. -/
def Alike (lane other : Lane σ) : Prop :=
  other.inlet = lane.inlet ∧
    (lane.inlet.mayPull = true → other.pull lane.inlet.child = lane.pull lane.inlet.child)

theorem alike_fill (hasNext : σ → Except Failure Bool) (scan : Scan) {other : Lane σ}
    (alike : Alike lane other) :
    (other.fill hasNext scan).1 = (lane.fill hasNext scan).1 ∧
      Alike (lane.fill hasNext scan).2 (other.fill hasNext scan).2 := by
  obtain ⟨inlet, pull⟩ := other
  obtain ⟨rfl, same⟩ := alike
  rw [Lane.fill, Lane.fill]
  split
  · exact ⟨rfl, rfl, same⟩
  rcases hasNext lane.inlet.child with e | _ | _
  · exact ⟨rfl, rfl, same⟩
  · exact ⟨rfl, rfl, same⟩
  dsimp only at same ⊢
  split
  · exact ⟨rfl, rfl, same⟩
  next may =>
    rw [same (by simpa using may)]
    exact ⟨rfl, rfl, fun spent => absurd spent.symm Bool.false_ne_true.symm⟩

theorem alike_prepare (hasNext : σ → Except Failure Bool) (scan : Scan)
    {others : List (Lane σ)} (alike : List.Forall₂ Alike lanes others) :
    (prepare hasNext scan others).1 = (prepare hasNext scan lanes).1 ∧
      List.Forall₂ Alike (prepare hasNext scan lanes).2 (prepare hasNext scan others).2 := by
  induction alike with
  | nil => exact ⟨rfl, .nil⟩
  | @cons lane other lanes others first rest ih =>
    obtain ⟨same, filled⟩ := alike_fill hasNext scan first
    rw [prepare_cons, prepare_cons]
    generalize lane.fill hasNext scan = x, other.fill hasNext scan = y at same filled ⊢
    obtain ⟨outcome, x⟩ := x
    obtain ⟨second, y⟩ := y
    obtain rfl : second = outcome := same
    cases second with
    | none => exact ⟨ih.1, .cons filled ih.2⟩
    | some outcome => exact ⟨rfl, .cons filled rest⟩

theorem alike_inlets {others : List (Lane σ)} (alike : List.Forall₂ Alike lanes others) :
    others.map (·.inlet) = lanes.map (·.inlet) :=
  (map_eq_map_iff.2 (alike.imp fun _ _ alike => alike.1.symm)).symm

theorem alike_closeWindow {others : List (Lane σ)} (alike : List.Forall₂ Alike lanes others)
    (m : MergeStage) (window : Window) :
    (m.closeWindow others window).1 = (m.closeWindow lanes window).1 ∧
      (m.closeWindow others window).2.1 = (m.closeWindow lanes window).2.1 ∧
      List.Forall₂ Alike (m.closeWindow lanes window).2.2 (m.closeWindow others window).2.2 := by
  have held : others.filterMap (·.inlet.held) = lanes.filterMap (·.inlet.held) := by
    have same := congrArg (List.filterMap Inlet.held) (alike_inlets alike)
    rwa [List.filterMap_map, List.filterMap_map] at same
  have skipped : List.Forall₂ Alike
      (lanes.map fun lane => { lane with inlet := lane.inlet.skipPast window.range m.scan })
      (others.map fun lane => { lane with inlet := lane.inlet.skipPast window.range m.scan }) := by
    rw [List.forall₂_map_left_iff, List.forall₂_map_right_iff]
    exact alike.imp fun _ _ alike => ⟨by rw [alike.1], alike.2⟩
  rw [closeWindow, closeWindow, held]
  generalize feedAll (lanes.filterMap (·.inlet.held)) m.aggregators = fed
  obtain ⟨e | _, aggregators⟩ := fed
  · exact ⟨rfl, rfl, alike⟩
  dsimp only
  split
  · exact ⟨rfl, rfl, skipped⟩
  · exact ⟨rfl, rfl, skipped⟩

theorem alike_closeWindows (hasNext : σ → Except Failure Bool) {others : List (Lane σ)}
    (windows : Nat) (m : MergeStage)
    (alike : List.Forall₂ Alike lanes others) :
    (m.closeWindows hasNext windows others).1 = (m.closeWindows hasNext windows lanes).1 ∧
      (m.closeWindows hasNext windows others).2.1 = (m.closeWindows hasNext windows lanes).2.1 ∧
      (m.closeWindows hasNext windows others).2.2.map (·.inlet) =
        (m.closeWindows hasNext windows lanes).2.2.map (·.inlet) := by
  induction windows generalizing m lanes others with
  | zero => exact ⟨rfl, rfl, alike_inlets alike⟩
  | succ windows ih =>
    obtain ⟨same, filled⟩ := alike_prepare hasNext m.scan alike
    rw [closeWindows, closeWindows]
    split
    · exact ⟨rfl, rfl, alike_inlets alike⟩
    generalize prepare hasNext m.scan lanes = x, prepare hasNext m.scan others = y at same filled ⊢
    obtain ⟨outcome, x⟩ := x
    obtain ⟨second, y⟩ := y
    obtain rfl : second = outcome := same
    dsimp only at filled
    rcases second with e | _ | _
    · exact ⟨rfl, rfl, alike_inlets filled⟩
    · exact ⟨rfl, rfl, alike_inlets filled⟩
    dsimp only
    rcases m.enterWindow with _ | ⟨window, n⟩
    · exact ⟨rfl, rfl, alike_inlets filled⟩
    obtain ⟨same, stage, used⟩ := alike_closeWindow filled n window
    dsimp only
    generalize n.closeWindow x window = a, n.closeWindow y window = b at same stage used ⊢
    obtain ⟨outcome, n, a⟩ := a
    obtain ⟨second, o, b⟩ := b
    obtain rfl : second = outcome := same
    obtain rfl : o = n := stage
    dsimp only at used
    cases second with
    | error e => exact ⟨rfl, rfl, alike_inlets used⟩
    | ok => exact ih o used

/-- A call depends on the pull of each child that it starts with, and on no other. -/
theorem next_congr {others : List (Lane σ)} (m : MergeStage)
    (alike : List.Forall₂ (fun lane other : Lane σ => other.inlet = lane.inlet ∧
      other.pull lane.inlet.child = lane.pull lane.inlet.child) lanes others) :
    m.next hasNext others = m.next hasNext lanes := by
  have inlets : others.map (·.inlet) = lanes.map (·.inlet) :=
    (map_eq_map_iff.2 (alike.imp fun _ _ alike => alike.1.symm)).symm
  by_cases closed : m.closed = true
  · rw [next, next, if_pos closed, if_pos closed, inlets]
  rw [Bool.not_eq_true] at closed
  have anew : List.Forall₂ Alike (lanes.map Lane.anew) (others.map Lane.anew) := by
    rw [List.forall₂_map_left_iff, List.forall₂_map_right_iff]
    refine alike.imp fun lane other alike => ⟨?_, fun _ => alike.2⟩
    rw [Lane.anew, Lane.anew, alike.1]
  obtain ⟨same, stage, left⟩ := alike_closeWindows hasNext m.anew.windowsLeft m.anew anew
  rw [next_eq closed, next_eq closed]
  generalize m.anew.closeWindows hasNext m.anew.windowsLeft (lanes.map Lane.anew) = a,
    m.anew.closeWindows hasNext m.anew.windowsLeft (others.map Lane.anew) = b at same stage left ⊢
  obtain ⟨outcome, n, a⟩ := a
  obtain ⟨second, o, b⟩ := b
  obtain rfl : second = outcome := same
  obtain rfl : o = n := stage
  dsimp only at left
  cases second with
  | error e => exact congrArg (fun inlets => (_, o, inlets)) left
  | ok => exact congrArg (fun inlets => (_, _, inlets)) left

end MergeStage

namespace Tree
variable [Operator σ]

/-- The inlets of a merge with the pulls of their children. -/
def live (inlets : List (Inlet (Tree σ))) : List (Lane (Tree σ)) :=
  inlets.map fun inlet => ⟨inlet, next⟩

theorem inlets_live (inlets : List (Inlet (Tree σ))) :
    (live inlets).map (·.inlet) = inlets := by
  rw [live, List.map_map]
  exact List.map_id _

/-- A stage pulls its children for what they answer then. -/
theorem next_merge_live (m : MergeStage) (inlets : List (Inlet (Tree σ))) :
    (merge m inlets).next =
      (m.next hasNext (live inlets)).map id fun after => .merge after.1 after.2 := by
  have alike : List.Forall₂ (fun lane other : Lane (Tree σ) => other.inlet = lane.inlet ∧
      other.pull lane.inlet.child = lane.pull lane.inlet.child) (live inlets) (lanes inlets) := by
    rw [lanes_eq, live, List.forall₂_map_left_iff, List.forall₂_map_right_iff, List.forall₂_same]
    exact fun _ _ => ⟨rfl, rfl⟩
  rw [next, MergeStage.next_congr m alike]
  rfl

end Tree

end WindowFold
