import WindowFold.Operator.MergeStage
import WindowFold.Proofs.Answers
import WindowFold.Proofs.Typing
import WindowFold.Proofs.Windows

/-! A merge stage over a whole run. Every child owes one row for each window
that is left, wherever its blocks end, so the rows at hand when a window is
closed are the children's rows of that window and nothing else. -/
namespace WindowFold

/-- A block in scan order with exactly one row within a window. -/
structure Brings (types : List ScalarType) (scan : Scan) (w : Window) (block : Block) (r : Row) :
    Prop where
  types : block.schema.types = types
  ordered : scan.Ordered block.rows
  within : block.rows.filter (Row.within w.range) = [r]

/-- What a merge has to do: the row that each child gives for a window, and the
row that they come to. -/
structure Confluence where
  types : List ScalarType
  scan : Scan
  fresh : List Aggregator
  parts : List (Window → Row)
  result : Window → Row
  timed : ∀ part ∈ parts, ∀ w, (part w).time = w.outputTime
  resultTime : ∀ w, (result w).time = w.outputTime
  resultTypes : ∀ w, (result w).values.map (·.type) = Schema.types (outputSchema fresh).tail
  combine : ∀ w blocks, List.Forall₂ (fun block part => Brings types scan w block (part w)) blocks
    parts → ∃ aggregators,
      MergeStage.feedAll blocks (enterAll fresh w.range) = (.ok (), aggregators) ∧
      outputRow aggregators = (result w).values ∧
      ∀ range, enterAll aggregators range = enterAll fresh range

variable {σ : Type} [Operator σ]

namespace Inlet

def kept (inlet : Inlet σ) : List Row := (inlet.held.map Block.rows).getD []

end Inlet

/-- What a child still owes, within so many pulls. It is poised for the one pull
of a call, and has to be asked again after it. -/
structure Lane.Owes (types : List ScalarType) (scan : Scan) (todo : List Window) (lane : Lane σ)
    (part : Window → Row) (pulls : Nat) (rest : List Row) : Prop where
  rows : lane.inlet.kept ++ rest = todo.map part
  held : ∀ block ∈ lane.inlet.held, block.schema.types = types ∧ scan.Ordered block.rows ∧
    block.rows ≠ []
  ended : lane.inlet.ended = true → lane.inlet.held = none ∧ rest = []
  poised : lane.inlet.ended = false → lane.inlet.mayPull = true →
    lane.pull lane.inlet.child = Operator.next lane.inlet.child ∧
      Poised types true pulls rest lane.inlet.child
  pulled : lane.inlet.ended = false → lane.inlet.mayPull = false →
    Yields types true pulls rest lane.inlet.child

variable {types : List ScalarType} {scan : Scan} {todo : List Window} {lane : Lane σ}
  {part : Window → Row} {pulls : Nat} {rest : List Row}

theorem Lane.Owes.of_pulled (rows : lane.inlet.kept ++ rest = todo.map part)
    (held : ∀ block ∈ lane.inlet.held, block.schema.types = types ∧ scan.Ordered block.rows ∧
      block.rows ≠ [])
    (open_ : lane.inlet.ended = false) (used : lane.inlet.mayPull = false)
    (yields : Yields types true pulls rest lane.inlet.child) :
    lane.Owes types scan todo part pulls rest where
  rows := rows
  held := held
  ended ended := absurd (ended.symm.trans open_) nofun
  poised _ may := absurd (may.symm.trans used) nofun
  pulled _ _ := yields

theorem Lane.Owes.rest_ne_nil (owes : lane.Owes types scan todo part pulls rest)
    (windows : todo ≠ []) (empty : lane.inlet.held = none) : rest ≠ [] := by
  intro nothing
  have rows := owes.rows
  rw [Inlet.kept, empty, nothing] at rows
  exact windows (List.map_eq_nil_iff.1 rows.symm)

theorem Lane.Owes.open_ (owes : lane.Owes types scan todo part pulls rest) (windows : todo ≠ [])
    (empty : lane.inlet.held = none) : lane.inlet.ended = false := by
  by_contra ended
  exact owes.rest_ne_nil windows empty (owes.ended (by simpa using ended)).2

theorem Lane.Owes.hasNext (owes : lane.Owes types scan todo part pulls rest) (windows : todo ≠ [])
    (empty : lane.inlet.held = none) : Operator.hasNext lane.inlet.child = .ok true := by
  have going := owes.open_ windows empty
  have tells : Tells true rest lane.inlet.child := by
    cases may : lane.inlet.mayPull with
    | true => exact (owes.poised going may).2.tells
    | false => exact (owes.pulled going may).1
  obtain ⟨more, told, last⟩ := tells.more
  cases more with
  | true => exact told
  | false => exact absurd (last rfl) (owes.rest_ne_nil windows empty)

/-- A child that owes rows gives some or makes one wait, and is nearer to its end. -/
theorem Lane.Owes.pull_spec (owes : lane.Owes types scan todo part pulls rest) (windows : todo ≠ [])
    (empty : lane.inlet.held = none) (may : lane.inlet.mayPull = true) :
    ∃ answer next after fewer, lane.pull lane.inlet.child = (.ok answer, next) ∧
      answer ≠ .endOfStream ∧ answer.Leaves types rest after ∧ fewer < pulls ∧
      Yields types true fewer after next := by
  obtain ⟨pulled, poised⟩ := owes.poised (owes.open_ windows empty) may
  cases pulls with
  | zero => exact poised.elim
  | succ pulls =>
    obtain ⟨_, answer, next, after, given, leaves, later⟩ := poised lane.inlet.child .never
    have going : answer ≠ .endOfStream := by
      intro last
      refine owes.rest_ne_nil windows empty ?_
      rw [leaves.given, leaves.ended last, last]
      rfl
    exact ⟨answer, next, after, pulls, pulled.trans given, going, leaves, Nat.lt_succ_self pulls,
      later going⟩

/-- The rows of a child by windows: the first is of the window, the others are past it. -/
theorem InTurn.split {window : Window} {coming : List Window}
    (turn : InTurn scan (window :: coming)) (timed : ∀ w, (part w).time = w.outputTime) :
    (part window).within window.range = true ∧ ∀ r ∈ coming.map part,
      r.past window.range scan = true := by
  refine ⟨?_, fun r member => ?_⟩
  · rw [Row.within, timed]
    exact turn.real window List.mem_cons_self
  · obtain ⟨w, later, rfl⟩ := List.mem_map.1 member
    rw [Row.past, timed]
    exact turn.past later

theorem Lane.Owes.close {window : Window} {coming : List Window} {block : Block}
    (owes : lane.Owes types scan (window :: coming) part pulls rest)
    (turn : InTurn scan (window :: coming)) (timed : ∀ w, (part w).time = w.outputTime)
    (held : lane.inlet.held = some block) :
    Brings types scan window block (part window) ∧
      Lane.Owes types scan coming { lane with inlet := lane.inlet.skipPast window.range scan } part
        pulls rest := by
  obtain ⟨sort, ordered, filled⟩ := owes.held block held
  have due := owes.rows
  rw [Inlet.kept, held, Option.map_some, Option.getD_some, List.map_cons] at due
  obtain ⟨first, more, rows⟩ := List.exists_cons_of_ne_nil filled
  rw [rows, List.cons_append] at due
  obtain ⟨rfl, left⟩ := List.cons.inj due
  obtain ⟨inside, past⟩ := turn.split timed
  have later : ∀ r ∈ more, r.past window.range scan = true := fun r member =>
    past r (left ▸ List.mem_append_left _ member)
  have within : block.rows.filter (Row.within window.range) = [part window] := by
    rw [rows, List.filter_cons_of_pos inside,
      List.filter_eq_nil_iff.2 fun r member => by simp [Row.within_of_past (later r member)]]
  have skipped : (block.skipPast window.range scan).rows = more := by
    have present : (part window).past window.range scan = false := by
      by_contra passed
      rw [Row.within_of_past (by simpa using passed)] at inside
      contradiction
    rw [Block.rows_skipPast, rows, List.dropWhile_cons_of_pos (by simp [present])]
    cases more with
    | nil => rfl
    | cons r others => rw [List.dropWhile_cons_of_neg (by simp [later r List.mem_cons_self])]
  refine ⟨⟨sort, ordered, within⟩, ?_⟩
  have keeps : (lane.inlet.skipPast window.range scan).held =
      if more = [] then none else some (block.skipPast window.range scan) := by
    have empty := Block.isEmpty_iff (block.skipPast window.range scan)
    rw [skipped] at empty
    by_cases nothing : more = [] <;> simp [Inlet.skipPast, held, Option.filter, empty, nothing]
  refine ⟨?_, fun b member => ?_, fun ended => ?_, owes.poised, owes.pulled⟩
  · rw [Inlet.kept, keeps, ← left]
    split
    next nothing => rw [nothing]; rfl
    next => rw [Option.map_some, skipped]; rfl
  · rw [keeps] at member
    split at member
    · contradiction
    next something =>
      cases member
      refine ⟨by rw [Block.skipPast, Block.schema_sliceFrom, sort], ?_, skipped ▸ something⟩
      rw [skipped]
      rw [rows] at ordered
      exact ordered.of_cons
  · have none := (owes.ended ended).1
    rw [held] at none
    contradiction

namespace MergeStage

def Owing (types : List ScalarType) (scan : Scan) (todo : List Window) (lanes : List (Lane σ))
    (flows : List ((Window → Row) × Nat)) : Prop :=
  List.Forall₂ (fun lane flow => ∃ rest, lane.Owes types scan todo flow.1 flow.2 rest) lanes flows

def pullsLeft (flows : List ((Window → Row) × Nat)) : Nat := (flows.map (·.2)).sum

def Spent (lanes : List (Lane σ)) : Prop := ∃ lane ∈ lanes, lane.inlet.mayPull = false

/-- What comes of an attempt to fill the inlets: all hold rows, or a child that
has been pulled has nothing to give. -/
structure Filled (types : List ScalarType) (scan : Scan) (todo : List Window)
    (lanes : List (Lane σ)) (flows : List ((Window → Row) × Nat)) (full : Bool)
    (filled : List (Lane σ)) (fewer : List ((Window → Row) × Nat)) : Prop where
  owing : Owing types scan todo filled fewer
  parts : fewer.map (·.1) = flows.map (·.1)
  less : pullsLeft fewer ≤ pullsLeft flows
  spent : Spent filled → Spent lanes ∨ pullsLeft fewer < pullsLeft flows
  held : full = true → ∀ lane ∈ filled, lane.inlet.held.isSome = true
  stopped : full = false → Spent filled

section
variable {lanes filled : List (Lane σ)} {flows fewer : List ((Window → Row) × Nat)} {full : Bool}
  {next : Lane σ} {after : List Row} {left : Nat}

theorem Filled.goOn (later : Filled types scan todo lanes flows full filled fewer)
    (owes : next.Owes types scan todo part left after) (held : next.inlet.held.isSome = true)
    (pace : next.inlet.mayPull = lane.inlet.mayPull ∧ left = pulls ∨ left < pulls) :
    Filled types scan todo (lane :: lanes) ((part, pulls) :: flows) full (next :: filled)
      ((part, left) :: fewer) where
  owing := .cons ⟨after, owes⟩ later.owing
  parts := by simp [later.parts]
  less := by
    have := later.less
    simp only [pullsLeft, List.map_cons, List.sum_cons] at *
    omega
  spent := by
    have := later.less
    simp only [pullsLeft, List.map_cons, List.sum_cons] at *
    rintro ⟨l, member, used⟩
    rcases List.mem_cons.1 member with rfl | member
    · rcases pace with ⟨same, _⟩ | nearer
      · exact .inl ⟨lane, List.mem_cons_self, same ▸ used⟩
      · exact .inr (by omega)
    · rcases later.spent ⟨l, member, used⟩ with ⟨k, inside, used⟩ | nearer
      · exact .inl ⟨k, List.mem_cons_of_mem _ inside, used⟩
      · simp only [pullsLeft] at nearer
        exact .inr (by omega)
  held all l member := by
    rcases List.mem_cons.1 member with rfl | member
    · exact held
    · exact later.held all l member
  stopped none := by
    obtain ⟨l, member, used⟩ := later.stopped none
    exact ⟨l, List.mem_cons_of_mem _ member, used⟩

theorem Filled.stop (owing : Owing types scan todo lanes flows)
    (owes : next.Owes types scan todo part left after) (used : next.inlet.mayPull = false)
    (pace : lane.inlet.mayPull = false ∧ left = pulls ∨ left < pulls) :
    Filled types scan todo (lane :: lanes) ((part, pulls) :: flows) false (next :: lanes)
      ((part, left) :: flows) where
  owing := .cons ⟨after, owes⟩ owing
  parts := rfl
  less := by
    simp only [pullsLeft, List.map_cons, List.sum_cons]
    omega
  spent := by
    simp only [pullsLeft, List.map_cons, List.sum_cons]
    rintro _
    rcases pace with ⟨may, _⟩ | nearer
    · exact .inl ⟨lane, List.mem_cons_self, may⟩
    · exact .inr (by omega)
  held := nofun
  stopped _ := ⟨next, List.mem_cons_self, used⟩

end

theorem prepare_spec (windows : todo ≠ []) {lanes : List (Lane σ)}
    {flows : List ((Window → Row) × Nat)} (owing : Owing types scan todo lanes flows)
    (ordered : ∀ flow ∈ flows, scan.Ordered (todo.map flow.1)) :
    ∃ full filled fewer, prepare Operator.hasNext scan lanes = (.ok full, filled) ∧
      Filled types scan todo lanes flows full filled fewer := by
  induction owing with
  | nil => exact ⟨true, [], [], rfl, .nil, rfl, Nat.le_refl _, nofun, nofun, nofun⟩
  | @cons lane flow lanes flows owes owing ih =>
    obtain ⟨part, pulls⟩ := flow
    obtain ⟨rest, owes⟩ := owes
    obtain ⟨full, filled, fewer, prepared, later⟩ :=
      ih fun flow member => ordered flow (List.mem_cons_of_mem _ member)
    rw [prepare, prepared]
    cases held : lane.inlet.held with
    | some block =>
      exact ⟨full, _, _, by simp, later.goOn owes (by simp [held]) (.inl ⟨rfl, rfl⟩)⟩
    | none =>
      have open_ := owes.open_ windows held
      simp only [open_, owes.hasNext windows held, Option.isSome_none, Bool.or_self,
        Bool.false_eq_true, if_false]
      cases may : lane.inlet.mayPull with
      | false => exact ⟨false, _, _, by simp, .stop owing owes may (.inl ⟨may, rfl⟩)⟩
      | true =>
        obtain ⟨answer, next, after, left, pulled, going, leaves, nearer, yields⟩ :=
          owes.pull_spec windows held may
        have due := owes.rows
        rw [Inlet.kept, held, leaves.given] at due
        simp only [pulled, Bool.not_true, Bool.false_eq_true, if_false]
        cases answer with
        | endOfStream => exact absurd rfl going
        | notReady =>
          have waits : Lane.Owes types scan todo ⟨⟨next, none, false, false⟩, lane.pull⟩ part left
            after := .of_pulled due nofun rfl rfl yields
          exact ⟨false, _, _, rfl, .stop owing waits rfl (.inr nearer)⟩
        | block block =>
          by_cases empty : block.isEmpty = true
          · rw [Answer.rows, (Block.isEmpty_iff block).1 empty] at due
            have waits : Lane.Owes types scan todo ⟨⟨next, none, false, false⟩, lane.pull⟩ part left
              after := .of_pulled due nofun rfl rfl yields
            exact ⟨false, _, _, if_pos empty, .stop owing waits rfl (.inr nearer)⟩
          · have inOrder : scan.Ordered block.rows := by
              refine List.Pairwise.sublist ?_ (ordered _ List.mem_cons_self)
              rw [← due]
              exact List.sublist_append_left _ _
            have checked := (Block.checkScanOrder_eq_ok_iff block scan).2 inOrder
            have gives : Lane.Owes types scan todo
                ⟨⟨next, some block, false, false⟩, lane.pull⟩ part left after := by
              refine .of_pulled due (fun b member => ?_) rfl rfl yields
              cases member
              exact ⟨leaves.typed block rfl, inOrder, fun nothing =>
                empty ((Block.isEmpty_iff block).2 nothing)⟩
            exact ⟨full, _, _, (if_neg empty).trans (by rw [checked]),
              later.goOn gives rfl (.inr nearer)⟩

/-- Where a merge stands between two windows. -/
structure Stands (job : Confluence) (m : MergeStage) : Prop where
  scan : m.cursor.scan = job.scan
  turn : InTurn job.scan m.cursor.left
  fresh : ∀ range, enterAll m.aggregators range = enterAll job.fresh range
  idle : m.active = none
  running : m.closed = false

variable {job : Confluence} {m : MergeStage} {lanes : List (Lane σ)}
  {flows : List ((Window → Row) × Nat)} {window : Window} {coming : List Window}
  {emitted : List Row}

theorem windowsLeft_eq (idle : m.active = none) : m.windowsLeft = m.cursor.left.length := by
  rw [windowsLeft, idle, Cursor.remaining_eq]
  rfl

theorem hasNext_eq (idle : m.active = none) (running : m.closed = false) :
    m.hasNext = !m.cursor.left.isEmpty := by
  rw [hasNext, running, idle, Cursor.hasNext_eq]
  rfl

/-- What every inlet holds is used in the window, and nothing but the row of the
window is. -/
theorem close_lanes (owing : Owing job.types job.scan (window :: coming) lanes flows)
    (turn : InTurn job.scan (window :: coming))
    (timed : ∀ part ∈ flows.map (·.1), ∀ w, (part w).time = w.outputTime)
    (held : ∀ lane ∈ lanes, lane.inlet.held.isSome = true) :
    List.Forall₂ (fun block part => Brings job.types job.scan window block (part window))
      (lanes.filterMap (·.inlet.held)) (flows.map (·.1)) ∧
    Owing job.types job.scan coming (lanes.map fun lane =>
      { lane with inlet := lane.inlet.skipPast window.range job.scan }) flows := by
  induction owing with
  | nil => exact ⟨.nil, .nil⟩
  | @cons lane flow lanes flows owes _ ih =>
    obtain ⟨rest, owes⟩ := owes
    obtain ⟨block, holds⟩ := Option.isSome_iff_exists.1 (held lane List.mem_cons_self)
    obtain ⟨brings, further⟩ := owes.close turn (timed flow.1 List.mem_cons_self) holds
    obtain ⟨others, later⟩ := ih (fun part member => timed part (List.mem_cons_of_mem _ member))
      fun l member => held l (List.mem_cons_of_mem _ member)
    have blocks : (lane :: lanes).filterMap (·.inlet.held) =
      block :: lanes.filterMap (·.inlet.held) := by
      simp [holds]
    rw [blocks]
    exact ⟨.cons brings others, .cons ⟨rest, further⟩ later⟩

theorem closeWindow_spec (stands : m.Stands job) (todo : m.cursor.left = window :: coming)
    (owing : Owing job.types job.scan m.cursor.left lanes flows)
    (parts : flows.map (·.1) = job.parts) (held : ∀ lane ∈ lanes, lane.inlet.held.isSome = true)
    (holds : m.buffer.Holds (outputSchema job.fresh) emitted) :
    ∃ v u after, m.enterWindow = some (window, v) ∧
      v.closeWindow lanes window = (.ok (), u, after) ∧ u.Stands job ∧
      u.cursor.left = coming ∧
      Owing job.types job.scan coming after flows ∧ (Spent after → Spent lanes) ∧
      u.buffer.Holds (outputSchema job.fresh) (emitted ++ [job.result window]) := by
  have turn := stands.turn
  rw [todo] at owing turn
  have next := m.cursor.next?_spec
  rw [todo] at next
  obtain ⟨cursor, met, left, scan⟩ := next
  obtain ⟨brings, later⟩ := close_lanes owing turn (parts ▸ job.timed) held
  obtain ⟨aggregators, fed, row, fresh⟩ := job.combine window _ (parts ▸ brings)
  obtain ⟨buffer, appended, filled⟩ := holds.append window.outputTime (job.resultTypes window)
  have same : (⟨window.outputTime, (job.result window).values⟩ : Row) = job.result window := by
    rw [← job.resultTime window]
  rw [same] at filled
  have entered : m.enterWindow = some (window, { m with
      cursor := cursor, aggregators := enterAll m.aggregators window.range,
      active := some window }) := by
    rw [enterWindow, stands.idle, met]
    rfl
  refine ⟨_,
    { m with cursor := cursor, aggregators := aggregators, active := none, buffer := buffer },
    _, entered, ?_, ⟨scan.trans stands.scan, left ▸ turn.tail, fresh, rfl, stands.running⟩, left,
    later, ?_, filled⟩
  · rw [closeWindow, stands.fresh, fed]
    simp only [MergeStage.scan, scan, stands.scan, row, appended]
  · rintro ⟨l, member, used⟩
    obtain ⟨k, inside, rfl⟩ := List.mem_map.1 member
    exact ⟨k, inside, used⟩

/-- What closing windows comes to: these are closed, and a row of each is there. It has
stopped where no window is left, where there are rows to give, or where a child has been
pulled. -/
structure Ran (job : Confluence) (m : MergeStage) (lanes : List (Lane σ))
    (flows : List ((Window → Row) × Nat)) (emitted : List Row) (v : MergeStage)
    (after : List (Lane σ)) (fewer : List ((Window → Row) × Nat)) (closed : List Window) :
    Prop where
  stands : v.Stands job
  owing : Owing job.types job.scan v.cursor.left after fewer
  parts : fewer.map (·.1) = job.parts
  todo : m.cursor.left = closed ++ v.cursor.left
  holds : v.buffer.Holds (outputSchema job.fresh) (emitted ++ closed.map job.result)
  less : pullsLeft fewer ≤ pullsLeft flows
  spent : Spent after → Spent lanes ∨ pullsLeft fewer < pullsLeft flows
  stops : v.cursor.left = [] ∨ emitted ++ closed.map job.result ≠ [] ∨ Spent after

theorem Ran.idle (stands : m.Stands job)
    (owing : Owing job.types job.scan m.cursor.left lanes flows)
    (parts : flows.map (·.1) = job.parts) (holds : m.buffer.Holds (outputSchema job.fresh) emitted)
    (stops : m.cursor.left = [] ∨ emitted ≠ []) :
    Ran job m lanes flows emitted m lanes flows [] where
  stands := stands
  owing := owing
  parts := parts
  todo := rfl
  holds := by simpa using holds
  less := Nat.le_refl _
  spent := .inl
  stops := stops.imp_right fun some => .inl (by simpa using some)

/-- The inlets are filled and a window is closed before the others. -/
theorem Ran.cons {u v : MergeStage} {filled used after : List (Lane σ)} {closed : List Window}
    {between fewer : List ((Window → Row) × Nat)} {full : Bool}
    (state : Filled job.types job.scan m.cursor.left lanes flows full filled between)
    (spent : Spent used → Spent filled) (todo : m.cursor.left = window :: u.cursor.left)
    (ran : Ran job u used between (emitted ++ [job.result window]) v after fewer closed) :
    Ran job m lanes flows emitted v after fewer (window :: closed) where
  stands := ran.stands
  owing := ran.owing
  parts := ran.parts
  todo := by rw [todo, ran.todo, List.cons_append]
  holds := by simpa using ran.holds
  less := Nat.le_trans ran.less state.less
  spent last := by
    rcases ran.spent last with earlier | nearer
    · exact (state.spent (spent earlier)).imp_right (Nat.lt_of_le_of_lt ran.less)
    · exact .inr (Nat.lt_of_lt_of_le nearer state.less)
  stops := .inr (.inl (by simp))

theorem closeWindows_spec {windows : Nat} (enough : windows = m.cursor.left.length)
    (stands : m.Stands job) (owing : Owing job.types job.scan m.cursor.left lanes flows)
    (parts : flows.map (·.1) = job.parts)
    (holds : m.buffer.Holds (outputSchema job.fresh) emitted) :
    ∃ v after fewer closed, m.closeWindows Operator.hasNext windows lanes = (.ok (), v, after) ∧
      Ran job m lanes flows emitted v after fewer closed := by
  induction windows generalizing m lanes flows emitted with
  | zero =>
    have none : m.cursor.left = [] := List.length_eq_zero_iff.1 enough.symm
    exact ⟨m, lanes, flows, [], rfl, .idle stands owing parts holds (.inl none)⟩
  | succ windows ih =>
    rw [closeWindows]
    by_cases full : m.buffer.isFull = true
    · refine ⟨m, lanes, flows, [], by rw [if_pos full], .idle stands owing parts holds (.inr ?_)⟩
      rintro rfl
      exact absurd full (by simp [holds.not_full])
    rw [if_neg full]
    cases todo : m.cursor.left with
    | nil => rw [todo] at enough; contradiction
    | cons window coming =>
    have some : m.cursor.left ≠ [] := by rw [todo]; exact List.cons_ne_nil _ _
    have ordered : ∀ flow ∈ flows, job.scan.Ordered (m.cursor.left.map flow.1) := fun flow member =>
      stands.turn.ordered (job.timed flow.1 (parts ▸ List.mem_map_of_mem member))
    obtain ⟨full, filled, fewer, prepared, state⟩ := prepare_spec some owing ordered
    simp only [MergeStage.scan, stands.scan, prepared]
    cases full with
    | false =>
      exact ⟨m, filled, fewer, [], rfl, stands, state.owing, state.parts.trans parts, rfl,
        by simpa using holds, state.less, state.spent, .inr (.inr (state.stopped rfl))⟩
    | true =>
      obtain ⟨v, u, after, entered, closes, stood, left, owes, spent, held⟩ :=
        closeWindow_spec stands todo state.owing (state.parts.trans parts) (state.held rfl) holds
      simp only [entered, closes]
      have rest : windows = u.cursor.left.length := by
        rw [todo] at enough
        rw [left]
        exact Nat.succ.inj enough
      obtain ⟨x, last, fewest, closed, closing, ran⟩ :=
        ih rest stood (left ▸ owes) (state.parts.trans parts) held
      exact ⟨x, last, fewest, window :: closed, closing, .cons state spent (left ▸ todo) ran⟩

end MergeStage

/-- What a child still owes between two calls. -/
structure Inlet.Owes (types : List ScalarType) (scan : Scan) (todo : List Window) (inlet : Inlet σ)
    (part : Window → Row) (pulls : Nat) (rest : List Row) : Prop where
  rows : inlet.kept ++ rest = todo.map part
  held : ∀ block ∈ inlet.held, block.schema.types = types ∧ scan.Ordered block.rows ∧
    block.rows ≠ []
  ended : inlet.ended = true → inlet.held = none ∧ rest = []
  yields : inlet.ended = false → Yields types true pulls rest inlet.child

theorem Lane.Owes.inlet (owes : lane.Owes types scan todo part pulls rest) :
    lane.inlet.Owes types scan todo part pulls rest where
  rows := owes.rows
  held := owes.held
  ended := owes.ended
  yields going := by
    cases may : lane.inlet.mayPull with
    | true => exact (owes.poised going may).2.yields
    | false => exact owes.pulled going may

namespace MergeStage

structure Rests (job : Confluence) (m : MergeStage) (inlets : List (Inlet σ))
    (flows : List ((Window → Row) × Nat)) : Prop where
  stands : m.Stands job
  parts : flows.map (·.1) = job.parts
  holds : ∃ emitted, m.buffer.Holds (outputSchema job.fresh) emitted
  owing : List.Forall₂ (fun inlet flow => ∃ rest,
    inlet.Owes job.types job.scan m.cursor.left flow.1 flow.2 rest) inlets flows

/-- The children have been asked for their readiness since they were pulled. -/
def Asking (job : Confluence) (m : MergeStage) (inlets : List (Inlet σ))
    (flows : List ((Window → Row) × Nat)) : Prop :=
  List.Forall₂ (fun inlet flow => ∃ rest,
    inlet.Owes job.types job.scan m.cursor.left flow.1 flow.2 rest ∧
    (inlet.ended = false → Poised job.types true flow.2 rest inlet.child)) inlets flows

variable {job : Confluence} {m : MergeStage} {inlets : List (Inlet σ)}
  {flows : List ((Window → Row) × Nat)}

/-- A call gives the rows of the windows that it closes. If it gives none and
this is not the end, it has brought a child's end nearer. -/
theorem next_spec (rests : m.Rests job inlets flows) (asking : m.Asking job inlets flows)
    {lanes : List (Lane σ)} (same : lanes.map (·.inlet) = inlets)
    (pulled : ∀ lane ∈ lanes, lane.pull lane.inlet.child = Operator.next lane.inlet.child) :
    ∃ answer v after fewer, m.next Operator.hasNext lanes = (.ok answer, v, after) ∧
      v.Rests job after fewer ∧
      answer.Leaves (outputSchema job.fresh).types (m.cursor.left.map job.result)
        (v.cursor.left.map job.result) ∧
      (answer ≠ .endOfStream →
        pullsLeft fewer + v.cursor.left.length < pullsLeft flows + m.cursor.left.length) := by
  obtain ⟨emitted, holds⟩ := rests.holds
  subst same
  let u : MergeStage := { m with buffer := m.buffer.clear }
  let ready := lanes.map fun lane => { lane with inlet := { lane.inlet with mayPull := true } }
  have stood : u.Stands job := { rests.stands with }
  have owing : Owing job.types job.scan u.cursor.left ready flows := by
    rw [Asking, List.forall₂_map_left_iff] at asking
    refine List.forall₂_map_left_iff.2 (((List.forall₂_and_left _ _).2 ⟨pulled, asking⟩).imp ?_)
    rintro lane flow ⟨own, rest, owes, poised⟩
    exact ⟨rest, owes.rows, owes.held, owes.ended, fun going _ => ⟨own, poised going⟩,
      fun _ used => absurd used nofun⟩
  have unspent : ¬ Spent ready := by
    rintro ⟨lane, member, used⟩
    obtain ⟨_, _, rfl⟩ := List.mem_map.1 member
    contradiction
  obtain ⟨v, after, fewer, closed, closing, ran⟩ :=
    closeWindows_spec (windowsLeft_eq stood.idle) stood owing rests.parts holds.clear
  have further := ran.stands
  have split : m.cursor.left = closed ++ v.cursor.left := ran.todo
  have held := ran.holds
  have stop := ran.stops
  rw [List.nil_append] at held stop
  have start : m.next Operator.hasNext lanes = (v.answer.1, v.answer.2, after.map (·.inlet)) := by
    rw [MergeStage.next, if_neg (by simp [rests.stands.running])]
    simp only
    rw [show MergeStage.closeWindows Operator.hasNext _ u ready = _ from closing]
  have rest : v.Rests job (after.map (·.inlet)) fewer :=
    ⟨further, ran.parts, ⟨_, held⟩, List.forall₂_map_left_iff.2
      (ran.owing.imp fun lane flow ⟨rest, due⟩ => ⟨rest, due.inlet⟩)⟩
  have last : v.hasNext = false ↔ v.cursor.left.map job.result = [] := by
    rw [hasNext_eq further.idle further.running, Bool.not_eq_false', List.isEmpty_iff,
      List.map_eq_nil_iff]
  obtain ⟨answer, buffer, answered, cleared, leaves, some⟩ :=
    held.answer outputFields_nullable (split ▸ List.map_append) last
  refine ⟨answer, { v with buffer := buffer }, _, fewer, ?_,
    { rest with stands := { further with }, holds := ⟨[], cleared⟩ }, leaves, fun going => ?_⟩
  · rw [start, answer_eq, answered]
    rfl
  · change pullsLeft fewer + v.cursor.left.length < pullsLeft flows + m.cursor.left.length
    rw [split, List.length_append]
    cases closed with
    | nil =>
      have spent : Spent after := by
        rcases stop with none | given | spent
        · exact absurd none (by simpa using some going)
        · exact absurd rfl given
        · exact spent
      have := (ran.spent spent).resolve_left unspent
      omega
    | cons window others =>
      have := ran.less
      rw [List.length_cons]
      omega

end MergeStage

def Inlet.ask (inlet : Inlet σ) : Inlet σ :=
  if inlet.ended then inlet else { inlet with child := (Operator.readiness inlet.child).2 }

/-- A merge over children that are ready asks every child that has not ended. -/
theorem Tree.inletsReadiness_eq {inlets : List (Inlet (Tree σ))}
    (ready : ∀ inlet ∈ inlets, inlet.ended = false → (Operator.readiness inlet.child).1 = .ready)
    (index : Nat) : Tree.inletsReadiness index inlets = (.ready, inlets.map Inlet.ask) := by
  induction inlets generalizing index with
  | nil => rw [Tree.inletsReadiness]; rfl
  | cons inlet rest ih =>
    have later := ih (fun l member => ready l (List.mem_cons_of_mem _ member)) (index + 1)
    obtain ⟨child, held, mayPull, ended⟩ := inlet
    rw [Tree.inletsReadiness, later]
    cases ended with
    | true => rfl
    | false =>
      have first : (Tree.readiness child).1 = .ready := ready _ List.mem_cons_self rfl
      simp only [Bool.false_eq_true, if_false, Tree.inletReadiness, first]
      rfl

namespace MergeStage
variable {job : Confluence} {m : MergeStage} {inlets : List (Inlet (Tree σ))}
  {flows : List ((Window → Row) × Nat)}

theorem Rests.ready (rests : m.Rests job inlets flows) :
    ∀ inlet ∈ inlets, inlet.ended = false → (Operator.readiness inlet.child).1 = .ready := by
  intro inlet member going
  obtain ⟨flow, _, rest, owes⟩ := exists_right rests.owing member
  exact (owes.yields going).1.ready rfl

theorem Rests.readiness_merge (rests : m.Rests job inlets flows) :
    Operator.readiness (Tree.merge m inlets) = (.ready, .merge m (inlets.map Inlet.ask)) := by
  change Tree.readiness (.merge m inlets) = _
  rw [Tree.readiness, if_neg (by simp [rests.stands.running]),
    Tree.inletsReadiness_eq rests.ready]

theorem Rests.tells (rests : m.Rests job inlets flows) :
    Tells true (m.cursor.left.map job.result) (Tree.merge m inlets) where
  more := by
    refine ⟨m.hasNext, rfl, fun last => ?_⟩
    rw [hasNext_eq rests.stands.idle rests.stands.running, Bool.not_eq_false',
      List.isEmpty_iff] at last
    rw [last]
    rfl
  ready _ := by rw [rests.readiness_merge]

theorem Rests.asking (rests : m.Rests job inlets flows) :
    m.Asking job (inlets.map Inlet.ask) flows := by
  refine List.forall₂_map_left_iff.2 (rests.owing.imp ?_)
  rintro inlet flow ⟨rest, owes⟩
  cases ended : inlet.ended with
  | true =>
    rw [Inlet.ask, if_pos ended]
    exact ⟨rest, owes, fun going => absurd (ended.symm.trans going) nofun⟩
  | false =>
    have poised := (owes.yields ended).2
    rw [Inlet.ask, if_neg (by simp [ended])]
    exact ⟨rest, { owes with yields := fun _ => poised.yields }, fun _ => poised⟩

theorem Asking.rests {before : List (Inlet (Tree σ))} (asking : m.Asking job inlets flows)
    (rests : m.Rests job before flows) :
    m.Rests job inlets flows :=
  { rests with owing := List.Forall₂.imp (fun _ _ ⟨rest, owes, _⟩ => ⟨rest, owes⟩) asking }

theorem of_asked_merge {tree : Tree σ} (rests : m.Rests job inlets flows)
    (asking : m.Asking job inlets flows) (asked : Asked (.merge m inlets) tree) :
    ∃ others, tree = .merge m others ∧ m.Rests job others flows ∧ m.Asking job others flows := by
  induction asked with
  | never => exact ⟨inlets, rfl, rests, asking⟩
  | again _ ih =>
    obtain ⟨others, rfl, rests, _⟩ := ih
    exact ⟨_, by rw [rests.readiness_merge], rests.asking.rests rests, rests.asking⟩

/-- A merge over children that yield their rows of the windows, and are always
ready, yields what these come to. -/
theorem Rests.poised {calls : Nat} (rests : m.Rests job inlets flows)
    (asking : m.Asking job inlets flows)
    (bound : pullsLeft flows + m.cursor.left.length < calls) :
    Poised (outputSchema job.fresh).types true calls (m.cursor.left.map job.result)
      (Tree.merge m inlets) := by
  induction calls generalizing m inlets flows with
  | zero => omega
  | succ calls ih =>
    intro tree asked
    obtain ⟨others, rfl, still, stillAsking⟩ := of_asked_merge rests asking asked
    have own : ∀ lane ∈ Tree.lanes others,
        lane.pull lane.inlet.child = Operator.next lane.inlet.child := by
      rw [Tree.lanes_eq]
      intro lane member
      obtain ⟨inlet, _, rfl⟩ := List.mem_map.1 member
      rfl
    obtain ⟨answer, v, after, fewer, called, later, leaves, nearer⟩ :=
      next_spec still stillAsking (Tree.inlet_lanes others) own
    refine ⟨still.tells, answer, .merge v after, v.cursor.left.map job.result, ?_, leaves,
      fun going => ⟨later.tells, ?_⟩⟩
    · change Tree.next (.merge m others) = _
      rw [Tree.next]
      exact congrArg (fun r : Attempt (MergeStage × List (Inlet (Tree σ))) Answer =>
        (r.1, Tree.merge r.2.1 r.2.2)) called
    · rw [later.readiness_merge]
      have less := nearer going
      exact ih (later.asking.rests later) later.asking (by omega)

theorem Rests.yields_merge (rests : m.Rests job inlets flows) :
    Yields (outputSchema job.fresh).types true (pullsLeft flows + m.cursor.left.length + 1)
      (m.cursor.left.map job.result) (Tree.merge m inlets) := by
  refine ⟨rests.tells, ?_⟩
  rw [rests.readiness_merge]
  exact (rests.asking.rests rests).poised rests.asking (Nat.lt_succ_self _)

end MergeStage
end WindowFold
