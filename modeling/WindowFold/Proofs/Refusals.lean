import WindowFold.Proofs.BlockCalls
import WindowFold.Proofs.PullContract

/-! A window stage over a script that fails and gives blocks which are refused, and a
caller that goes on after every failure. What is refused leaves no trace, but the rows
of the windows that a call has closed before it fails are never handed out. -/
namespace WindowFold

namespace ScriptLine

/-- Nothing of the line can be taken in: it is a failure, its rows are not in the order
of the scan, or the first aggregation to read them misses a column. -/
def refused (scan : Scan) (fresh : List Aggregator) : ScriptLine → Bool
  | failure _ => true
  | answer (.block b) => !decide (scan.Ordered b.rows) || WindowStage.bars b fresh
  | answer _ => false

def calm (scan : Scan) (fresh : List Aggregator) (line : ScriptLine) : ScriptLine :=
  if line.refused scan fresh then answer .notReady else line

def comes (scan : Scan) (fresh : List Aggregator) : List ScriptLine → List Block
  | [] => []
  | answer .endOfStream :: _ => []
  | answer .notReady :: rest => comes scan fresh rest
  | failure _ :: rest => comes scan fresh rest
  | answer (.block b) :: rest =>
    if (answer (.block b)).refused scan fresh then comes scan fresh rest
    else b :: comes scan fresh rest

/-- The rows of a block that misses a column are met before those of a later block
that is taken in. -/
def precedes (scan : Scan) (fresh : List Aggregator) : ScriptLine → ScriptLine → Bool
  | answer (.block b), answer (.block c) =>
    !WindowStage.bars b fresh || (answer (.block c)).refused scan fresh ||
      b.rows.all fun r => c.rows.all fun s => scan.inOrder r.time s.time
  | _, _ => true

/-- What is taken in has these types, and what misses a column is in its place. -/
structure Fits (types : List ScalarType) (scan : Scan) (fresh : List Aggregator)
    (lines : List ScriptLine) : Prop where
  typed : ∀ b, answer (.block b) ∈ lines → (answer (.block b)).refused scan fresh = false →
    b.schema.types = types
  inPlace : lines.Pairwise fun line later => precedes scan fresh line later = true

variable {types : List ScalarType} {scan : Scan} {fresh : List Aggregator}
  {lines rest : List ScriptLine} {line : ScriptLine}

theorem mem_comes {b : Block} (member : b ∈ comes scan fresh lines) :
    answer (.block b) ∈ lines ∧ (answer (.block b)).refused scan fresh = false := by
  induction lines with
  | nil => exact absurd member List.not_mem_nil
  | cons line rest ih =>
    rcases line with (c | _ | _) | text
    · rw [comes] at member
      split at member
      · exact (ih member).imp (List.mem_cons_of_mem _) id
      next taken =>
        rcases List.mem_cons.1 member with rfl | later
        · exact ⟨List.mem_cons_self, by simpa using taken⟩
        · exact (ih later).imp (List.mem_cons_of_mem _) id
    · exact (ih member).imp (List.mem_cons_of_mem _) id
    · exact absurd member List.not_mem_nil
    · exact (ih member).imp (List.mem_cons_of_mem _) id

theorem ordered_of_taken {b : Block} (taken : (answer (.block b)).refused scan fresh = false) :
    scan.Ordered b.rows := by
  rw [refused, Bool.or_eq_false_iff] at taken
  simpa using taken.1

theorem comes_calm : comes scan fresh (lines.map (calm scan fresh)) = comes scan fresh lines := by
  induction lines with
  | nil => rfl
  | cons line rest ih =>
    rw [List.map_cons, calm]
    rcases line with (c | _ | _) | text
    · cases taken : (answer (.block c)).refused scan fresh with
      | true => simp only [if_true, comes, taken, ih]
      | false => simp only [Bool.false_eq_true, if_false, comes, taken, ih]
    · exact ih
    · rfl
    · exact ih

theorem calm_eq_block {b : Block} (same : calm scan fresh line = answer (.block b)) :
    line = answer (.block b) ∧ line.refused scan fresh = false := by
  rw [calm] at same
  split at same
  · cases same
  next taken => exact ⟨same, by simpa using taken⟩

theorem Fits.calm (fits : Fits types scan fresh lines) :
    Fits types scan fresh (lines.map (calm scan fresh)) where
  typed b member taken := by
    obtain ⟨line, listed, same⟩ := List.mem_map.1 member
    obtain ⟨rfl, _⟩ := calm_eq_block same
    exact fits.typed b listed taken
  inPlace := by
    refine List.pairwise_map.2 (fits.inPlace.imp fun {line later} _ => ?_)
    rcases first : line.calm scan fresh with (b | _ | _) | text
    · obtain ⟨rfl, taken⟩ := calm_eq_block first
      rw [refused, Bool.or_eq_false_iff] at taken
      rcases later.calm scan fresh with (c | _ | _) | text
      · rw [precedes, taken.2]
        rfl
      all_goals rfl
    all_goals rfl

theorem Fits.tail (fits : Fits types scan fresh (line :: rest)) : Fits types scan fresh rest where
  typed b member := fits.typed b (List.mem_cons_of_mem _ member)
  inPlace := fits.inPlace.of_cons

def outcome : ScriptLine → Except Failure Answer
  | answer a => .ok a
  | failure text => .error (.unsupported (.other text))

theorem deal (fits : Fits types scan fresh (line :: rest)) :
    ∃ after, Deal True scan fresh (comes scan fresh (line :: rest)) after line.outcome ∧
      (line.outcome ≠ .ok .endOfStream → comes scan fresh rest = after) ∧
      (rest = [] → after = []) := by
  have last : rest = [] → comes scan fresh rest = [] := by
    rintro rfl
    rfl
  rcases line with (b | _ | _) | text
  · refine ⟨comes scan fresh rest, ?_, fun _ => rfl, last⟩
    rw [comes]
    cases taken : (answer (.block b)).refused scan fresh with
    | false => exact .block b _
    | true =>
      by_cases ordered : scan.Ordered b.rows
      · have barred : WindowStage.bars b fresh = true := by simpa [refused, ordered] using taken
        refine .barred _ trivial ⟨barred, ordered, fun r first c listed s member => ?_⟩
        obtain ⟨later, taken⟩ := mem_comes listed
        have before := List.rel_of_pairwise_cons fits.inPlace later
        rw [precedes, barred, taken] at before
        exact List.all_eq_true.1 (List.all_eq_true.1 before r first) s member
      · exact .disordered _ trivial ordered
  · exact ⟨_, .wait _, fun _ => rfl, last⟩
  · exact ⟨[], .ended, fun going => absurd rfl going, fun _ => rfl⟩
  · exact ⟨_, .failed _ _ trivial, fun _ => rfl, last⟩

end ScriptLine

theorem Script.next_cons {s : Script} {line : ScriptLine} {rest : List ScriptLine}
    (asked : s.awaiting = false) (lines : s.lines = line :: rest) :
    s.next.1 = line.outcome ∧ s.next.2.lines = rest := by
  simp only [Script.next, asked, lines]
  cases line <;> exact ⟨rfl, rfl⟩

/-- A stage over a script between two calls. -/
structure Script.Supplies (types : List ScalarType) (scan : Scan) (fresh : List Aggregator)
    (limits : Limits) (w : WindowStage) (kept : Option Block) (blocks : List Block) (s : Script) :
    Prop where
  paused : w.Paused True types scan fresh limits kept blocks
  fits : ScriptLine.Fits types scan fresh s.lines
  comes : w.inputEnded = false → ScriptLine.comes scan fresh s.lines = blocks

/-- Every call that does not give the end makes this less: it closes a window, pulls the
script or gives up the rest of a block. -/
def Script.effort (w : WindowStage) (s : Script) : Nat :=
  w.todo.length + 2 * s.lines.length + w.cached.toList.length

inductive Round (types : List ScalarType) (scan : Scan) (fresh : List Aggregator) (limits : Limits)
    (w : WindowStage) (kept : Option Block) (blocks : List Block) (s : Script) :
    Except Failure Answer → Tree Script → Prop where
  | failed (e : Failure) (tree : Tree Script) (owes : w.owed fresh kept blocks = .error e) :
      Round types scan fresh limits w kept blocks s (.error e) tree
  | refused (e : Failure) (v : WindowStage) (t : Script) (left : Option Block) (now : List Block)
      (made : List Row) (supplies : t.Supplies types scan fresh limits v left now)
      (owes : w.owed fresh kept blocks = (v.owed fresh left now).map (made ++ ·))
      (todo : w.todo.length = made.length + v.todo.length)
      (single : limits.rows ≤ 1 → made = []) (less : t.effort v < s.effort w) :
      Round types scan fresh limits w kept blocks s (.error e) (.window v (.source t))
  | answers (answer : Answer) (v : WindowStage) (t : Script) (left : Option Block)
      (now : List Block)
      (supplies : t.Supplies types scan fresh limits v left now)
      (owes : w.owed fresh kept blocks = (v.owed fresh left now).map (answer.rows ++ ·))
      (todo : w.todo.length = answer.rows.length + v.todo.length)
      (last : answer = .endOfStream → v.todo = [])
      (less : answer ≠ .endOfStream → t.effort v < s.effort w) :
      Round types scan fresh limits w kept blocks s (.ok answer) (.window v (.source t))

section
variable {types : List ScalarType} {scan : Scan} {fresh : List Aggregator} {limits : Limits}
  {w v : WindowStage} {kept : Option Block} {blocks : List Block} {s t : Script}

def Script.asked (s : Script) (w : WindowStage) : Script :=
  if w.inputEnded then s
  else { s with awaiting := false, readinessChecks := s.readinessChecks + 1 }

theorem Script.lines_asked (s : Script) (w : WindowStage) : (s.asked w).lines = s.lines := by
  rw [asked]
  split <;> rfl

theorem Script.Supplies.hands (supplies : s.Supplies types scan fresh limits w kept blocks) :
    ∃ after, Hands True scan fresh Operator.hasNext
        (fun _ => Operator.next (Tree.source (s.asked w))) w.anew (Tree.source (s.asked w)) blocks
        after ∧
      ∀ v c now, Moved Operator.hasNext (fun _ => Operator.next (Tree.source (s.asked w))) w.anew
          (Tree.source (s.asked w)) blocks after v c now →
        ∃ t : Script, c = .source t ∧ ScriptLine.Fits types scan fresh t.lines ∧
          (v.inputEnded = false → ScriptLine.comes scan fresh t.lines = now) ∧
          (v.mayPull = true ∧ t.lines = s.lines ∧ (w.cached = none → v.cached = none) ∨
            v.mayPull = false ∧ t.lines.length < s.lines.length) := by
  have same := s.lines_asked w
  have stays : ∀ v : WindowStage, v.mayPull = true → v.inputEnded = w.inputEnded →
      (w.cached = none → v.cached = none) →
      ∃ t : Script, Tree.source (s.asked w) = .source t ∧ ScriptLine.Fits types scan fresh t.lines ∧
        (v.inputEnded = false → ScriptLine.comes scan fresh t.lines = blocks) ∧
        (v.mayPull = true ∧ t.lines = s.lines ∧ (w.cached = none → v.cached = none) ∨
          v.mayPull = false ∧ t.lines.length < s.lines.length) := fun v may ended cached =>
    ⟨s.asked w, rfl, same ▸ supplies.fits,
      fun open_ => same ▸ supplies.comes (ended.symm.trans open_), .inl ⟨may, same, cached⟩⟩
  cases going : w.inputEnded with
  | true =>
    refine ⟨[], ⟨supplies.paused.ended, fun open_ => absurd (going.symm.trans open_) nofun,
      fun open_ => absurd (going.symm.trans open_) nofun⟩, fun v c now moved => ?_⟩
    cases moved with
    | stays may ended cached => exact stays v may ended cached
    | pulled _ open_ => exact absurd (going.symm.trans open_) nofun
  | false =>
  have comes := supplies.comes going
  have told : Operator.hasNext (Tree.source (s.asked w)) = .ok (!s.lines.isEmpty) :=
    congrArg (fun lines : List ScriptLine => Except.ok !lines.isEmpty) same
  cases lines : s.lines with
  | nil =>
    rw [lines] at told comes
    refine ⟨[], ⟨fun _ => comes.symm, fun _ => ⟨false, told, fun _ => comes.symm⟩,
      fun _ _ more => absurd (told.symm.trans more) nofun⟩, fun v c now moved => ?_⟩
    cases moved with
    | stays may ended cached => exact lines ▸ stays v may ended cached
    | pulled _ _ more => exact absurd (told.symm.trans more) nofun
  | cons line rest =>
    have fits := lines ▸ supplies.fits
    obtain ⟨given, left⟩ := Script.next_cons (s := s.asked w) (by rw [asked, going]; rfl)
      (same.trans lines)
    obtain ⟨after, deal, further, last⟩ := ScriptLine.deal fits
    rw [lines] at comes told
    refine ⟨after, ⟨fun ended => absurd (going.symm.trans ended) nofun,
      fun _ => ⟨true, told, nofun⟩,
      fun _ _ _ => ⟨?_, !rest.isEmpty, ?_, ?_⟩⟩, fun v c now moved => ?_⟩
    · rw [comes, ← given] at deal
      exact deal
    · exact congrArg (fun lines : List ScriptLine => Except.ok !lines.isEmpty) left
    · exact fun none => last (by simpa using none)
    · cases moved with
      | stays may ended cached => exact lines ▸ stays v may ended cached
      | pulled _ _ _ spent _ goesOn =>
        refine ⟨(s.asked w).next.2, rfl, left ▸ fits.tail, fun open_ => ?_, .inr ⟨spent, ?_⟩⟩
        · rw [left]
          exact further (given ▸ goesOn open_)
        · rw [left]
          exact Nat.lt_succ_self _

theorem Script.effort_lt (fewer : v.todo.length ≤ w.todo.length)
    (pace : v.mayPull = true ∧ t.lines = s.lines ∧ (w.cached = none → v.cached = none) ∨
      v.mayPull = false ∧ t.lines.length < s.lines.length)
    (still : v.mayPull = true →
      v.todo.length < w.todo.length ∨ w.cached ≠ none ∧ v.cached = none) :
    t.effort v < s.effort w := by
  have one : ∀ kept : Option Block, kept.toList.length ≤ 1 := by
    rintro (_ | _) <;> simp
  have bound := one v.cached
  rw [effort, effort]
  rcases pace with ⟨may, same, cached⟩ | ⟨_, shorter⟩
  · rw [same]
    have kept : v.cached.toList.length ≤ w.cached.toList.length := by
      cases held : w.cached with
      | none => rw [cached held]
      | some block => exact bound
    rcases still may with less | ⟨held, empty⟩
    · omega
    · obtain ⟨block, held⟩ := Option.ne_none_iff_exists'.1 held
      rw [held, empty, Option.toList_some, Option.toList_none, List.length_singleton,
        List.length_nil]
      omega
  · omega

theorem Script.Supplies.round (prepared : Prepared types scan fresh)
    (supplies : s.Supplies types scan fresh limits w kept blocks) :
    Round types scan fresh limits w kept blocks s
      (Operator.next (Operator.readiness (Tree.window w (.source s))).2).1
      (Operator.next (Operator.readiness (Tree.window w (.source s))).2).2 := by
  have asked : (Operator.readiness (Tree.window w (.source s))).2 =
      .window w (.source (s.asked w)) := by
    rw [WindowStage.readiness_window supplies.paused.running, Script.asked]
    cases w.inputEnded <;> rfl
  obtain ⟨after, hands, further⟩ := supplies.hands
  have gives := WindowStage.next_gives prepared supplies.paused hands
  rw [asked, Tree.next_window]
  rcases called : w.next Operator.hasNext (fun _ => Operator.next (Tree.source (s.asked w)))
    (Tree.source (s.asked w)) with ⟨outcome, v, c⟩
  rw [called] at gives
  cases gives with
  | failed e _ _ owes => exact .failed e _ owes
  | refused e _ _ left now made _ makes paused single used =>
    obtain ⟨t, rfl, fits, comes, pace⟩ := further v c now makes.moved
    have todo : w.todo.length = made.length + v.todo.length := by
      simpa using congrArg List.length makes.todo
    exact .refused e v t left now made ⟨paused, fits, comes⟩ makes.owes todo single
      (Script.effort_lt (by omega) pace fun may => .inr (used may))
  | answers answer _ _ left now makes paused last goesOn =>
    obtain ⟨t, rfl, fits, comes, pace⟩ := further v c now makes.moved
    have todo : w.todo.length = answer.rows.length + v.todo.length := by
      simpa using congrArg List.length makes.todo
    refine .answers answer v t left now ⟨paused, fits, comes⟩ makes.owes todo last fun going => ?_
    refine Script.effort_lt (by omega) pace fun may => ?_
    have some := (goesOn going).resolve_right (by simp [may])
    have := List.length_pos_iff.2 some
    exact .inl (by omega)

theorem Script.Supplies.owed_of_drive (prepared : Prepared types scan fresh)
    (supplies : s.Supplies types scan fresh limits w kept blocks) {pulls : Nat} {given : List Block}
    (driven : drive pulls (Tree.window w (.source s)) = .ok (some given)) :
    w.owed fresh kept blocks = .ok (given.flatMap Block.rows) := by
  induction pulls generalizing w kept blocks s given with
  | zero => cases driven
  | succ pulls ih =>
    obtain ⟨fewer, answer, tree, same, pulled, ends⟩ := exists_of_drive driven
    obtain rfl : pulls = fewer := Nat.succ.inj same
    have round := supplies.round prepared
    rw [pulled] at round
    cases round with
    | answers _ v t left now further owes _ last _ =>
    rcases ends with ⟨rfl, rfl⟩ | ⟨_, more, later, rfl⟩
    · rw [owes, WindowStage.owed_nil (last rfl)]
      rfl
    · rw [owes, ih further later, List.flatMap_append, answer.flatMap_blocks]
      rfl

end

/-- A call of a tree, and how many windows the stage at the top has closed in it. -/
structure Call where
  outcome : Except Failure Answer
  closed : Nat

namespace Call

def rows (call : Call) : List Row :=
  match call.outcome with
  | .ok answer => answer.rows
  | .error _ => []

/-- These rows are those of the windows that the call has closed, and it hands them out
unless it fails. -/
structure Makes (limits : Limits) (call : Call) (part : List Row) : Prop where
  closed : part.length = call.closed
  given : ∀ answer, call.outcome = .ok answer → part = answer.rows
  single : limits.rows ≤ 1 → ∀ e, call.outcome = .error e → part = []

variable {limits : Limits} {call : Call} {part : List Row} {calls : List Call}
  {parts : List (List Row)}

theorem Makes.rows_sublist (makes : call.Makes limits part) : call.rows.Sublist part := by
  rw [rows]
  split
  next answer given => rw [makes.given answer given]
  next => exact List.nil_sublist _

theorem rows_sublist (all : List.Forall₂ (Makes limits) calls parts) :
    (calls.flatMap rows).Sublist parts.flatten := by
  induction all with
  | nil => exact .slnil
  | cons first _ ih => exact first.rows_sublist.append ih

/-- All rows that are made are handed out exactly if no call that fails has closed a window. -/
theorem rows_eq_iff (all : List.Forall₂ (Makes limits) calls parts) :
    calls.flatMap rows = parts.flatten ↔
      ∀ call ∈ calls, ∀ e, call.outcome = .error e → call.closed = 0 := by
  induction all with
  | nil => simp
  | @cons call part calls parts first others ih =>
    rw [List.flatMap_cons, List.flatten_cons, List.forall_mem_cons, ← ih]
    cases outcome : call.outcome with
    | ok answer =>
      have same : call.rows = part := by rw [rows, outcome, first.given answer outcome]
      rw [same, List.append_cancel_left_eq]
      exact ⟨fun later => ⟨nofun, later⟩, fun all => all.2⟩
    | error e =>
      have none : call.rows = [] := by rw [rows, outcome]
      rw [none, List.nil_append]
      constructor
      · intro same
        have fewer := (rows_sublist others).length_le
        rw [same, List.length_append] at fewer
        have empty : part = [] := List.length_eq_zero_iff.1 (by omega)
        refine ⟨fun _ _ => ?_, by rw [same, empty, List.nil_append]⟩
        rw [← first.closed, empty, List.length_nil]
      · rintro ⟨closed, same⟩
        have empty : part = [] := List.length_eq_zero_iff.1 (first.closed.trans (closed e rfl))
        rw [same, empty, List.nil_append]

end Call

namespace Tree
variable {σ : Type}

def windowsLeft : Tree σ → Nat
  | source _ => 0
  | window w _ => w.windowsLeft
  | merge m _ => m.windowsLeft

variable [Operator σ]

/-- Asks for the readiness and pulls, for so many rounds, and goes on where a pull fails:
the calls up to the end, or nothing if it is not reached. -/
def insist : (rounds : Nat) → Tree σ → Option (List Call)
  | 0, _ => none
  | rounds + 1, tree =>
    match tree.readiness.2.next with
    | (.ok .endOfStream, _) => some []
    | (outcome, after) =>
      (insist rounds after).map (⟨outcome, tree.windowsLeft - after.windowsLeft⟩ :: ·)

/-- The calls of these rounds make these rows, and then the end is given. -/
def Insists (limits : Limits) (tree : Tree σ) (rows : List Row) : Prop :=
  ∃ needed calls parts,
    (∀ rounds, insist rounds tree = if needed < rounds then some calls else none) ∧
    List.Forall₂ (Call.Makes limits) calls parts ∧ parts.flatten = rows

variable {limits : Limits} {tree after : Tree σ}

theorem insists_ended (called : tree.readiness.2.next = (.ok .endOfStream, after)) :
    Insists limits tree [] := by
  refine ⟨0, [], [], fun rounds => ?_, .nil, rfl⟩
  cases rounds with
  | zero => rfl
  | succ rounds =>
    rw [insist, called, if_pos (Nat.succ_pos rounds)]

theorem Insists.cons {outcome : Except Failure Answer} {made rows : List Row}
    (called : tree.readiness.2.next = (outcome, after)) (going : outcome ≠ .ok .endOfStream)
    (makes : Call.Makes limits ⟨outcome, tree.windowsLeft - after.windowsLeft⟩ made)
    (later : Insists limits after rows) : Insists limits tree (made ++ rows) := by
  obtain ⟨needed, calls, parts, driven, all, flat⟩ := later
  refine ⟨needed + 1, _ :: calls, made :: parts, fun rounds => ?_, .cons makes all, ?_⟩
  · cases rounds with
    | zero => rfl
    | succ rounds =>
      have goesOn : insist (rounds + 1) tree =
          (insist rounds after).map (⟨outcome, tree.windowsLeft - after.windowsLeft⟩ :: ·) := by
        rw [insist, called]
        rcases outcome with e | _ | _ | _
        · rfl
        · rfl
        · rfl
        · exact absurd rfl going
      rw [goesOn, driven]
      simp only [Nat.add_lt_add_iff_right]
      split <;> rfl
  · rw [List.flatten_cons, flat]

end Tree

section
variable {types : List ScalarType} {scan : Scan} {fresh : List Aggregator} {limits : Limits}
  {w v : WindowStage} {kept : Option Block} {blocks : List Block} {s t : Script}

/-- Gone on with after every failure, the stage comes to its end, and its calls have made
the rows that were owed. -/
theorem Script.Supplies.insists (prepared : Prepared types scan fresh)
    (supplies : s.Supplies types scan fresh limits w kept blocks) {rows : List Row}
    (owes : w.owed fresh kept blocks = .ok rows) :
    (Tree.window w (.source s)).Insists limits rows := by
  induction effort : s.effort w using Nat.strong_induction_on generalizing w kept blocks s rows with
  | _ n ih =>
  subst effort
  have round := supplies.round prepared
  have closes : ∀ (v : WindowStage) (t : Script) (made : List Row),
      w.todo.length = made.length + v.todo.length → made.length =
        (Tree.window w (.source s)).windowsLeft - (Tree.window v (.source t)).windowsLeft := by
    intro v t made todo
    rw [Tree.windowsLeft, Tree.windowsLeft, w.windowsLeft_eq, v.windowsLeft_eq]
    omega
  rcases called : Operator.next (Operator.readiness (Tree.window w (.source s))).2 with
    ⟨outcome, tree⟩
  rw [called] at round
  cases round with
  | failed e _ fails =>
    rw [owes] at fails
    contradiction
  | refused e v t left now made further owed todo single less =>
    obtain ⟨rest, later, rfl⟩ := WindowStage.rest_of_owes (owes ▸ owed)
    exact (ih _ less further later rfl).cons called nofun
      ⟨closes v t made todo, nofun, fun one _ _ => single one⟩
  | answers answer v t left now further owed todo last less =>
    obtain ⟨rest, later, rfl⟩ := WindowStage.rest_of_owes (owes ▸ owed)
    by_cases ended : answer = .endOfStream
    · subst ended
      rw [WindowStage.owed_nil (last rfl)] at later
      cases later
      exact Tree.insists_ended called
    · exact (ih _ (less ended) further later rfl).cons called (by simpa using ended)
        ⟨closes v t answer.rows todo, fun _ same => Except.ok.inj same ▸ rfl, nofun⟩

end

def Script.calmed (w : WindowStage) (s : Script) : Script :=
  { s with lines := s.lines.map (ScriptLine.calm w.scan w.aggregators) }

namespace Query
variable {q : Query}

/-- A caller that goes on after every failure brings the stage to its end. Its calls close
the windows with the rows of the run in which the script waits instead, call by call. Those
of a call that fails are lost, and nothing else is. -/
theorem insist_windowStage {context : Context} {stage : WindowStage} {s : Script}
    (accepted : q.windowStage context s.schema = .ok stage) (clock : ∀ g ∈ q.grouping, g.OnClock)
    (fits : ScriptLine.Fits s.schema.types stage.scan stage.aggregators s.lines)
    {pulls : Nat} {blocks : List Block}
    (driven : drive pulls (Tree.window stage (.source (s.calmed stage))) = .ok (some blocks)) :
    ∃ needed calls parts,
      (∀ rounds, (Tree.window stage (.source s)).insist rounds =
        if needed < rounds then some calls else none) ∧
      List.Forall₂ (fun call part => part.length = call.closed ∧
        ∀ answer, call.outcome = .ok answer → part = answer.rows) calls parts ∧
      parts.flatten = blocks.flatMap Block.rows ∧
      (calls.flatMap Call.rows = blocks.flatMap Block.rows ↔
        ∀ call ∈ calls, ∀ e, call.outcome = .error e → call.closed = 0) ∧
      (context.limits.rows ≤ 1 → ∀ call ∈ calls, ∀ e, call.outcome = .error e →
        call.closed = 0) := by
  obtain ⟨fresh, series, made, windows, rfl⟩ := windowStage_eq_ok accepted
  have prepared := prepared made
  have real := WindowSeries.contains_outputTime clock windows
  have supplies : ∀ t : Script, ScriptLine.Fits s.schema.types q.scan fresh t.lines →
      t.Supplies s.schema.types q.scan fresh context.limits
        (.create context fresh (.start series q.scan))
        none (ScriptLine.comes q.scan fresh t.lines) := fun t fits => {
    paused := WindowStage.paused_create context (fun _ => real) fun b listed =>
      have taken := ScriptLine.mem_comes listed
      ⟨fits.typed b taken.1 taken.2, ScriptLine.ordered_of_taken taken.2⟩
    fits := fits
    comes := fun _ => rfl }
  have fits : ScriptLine.Fits s.schema.types q.scan fresh s.lines := fits
  have owed := (supplies (s.calmed (.create context fresh (.start series q.scan)))
    fits.calm).owed_of_drive prepared driven
  rw [show (Script.calmed _ s).lines = s.lines.map (ScriptLine.calm q.scan fresh) from rfl,
    ScriptLine.comes_calm] at owed
  obtain ⟨needed, calls, parts, driven, all, flat⟩ := (supplies s fits).insists prepared owed
  refine ⟨needed, calls, parts, driven, all.imp fun _ _ makes => ⟨makes.closed, makes.given⟩, flat,
    flat ▸ Call.rows_eq_iff all, fun single call member e failed => ?_⟩
  obtain ⟨part, _, makes⟩ := exists_right all member
  rw [← makes.closed, makes.single single e failed, List.length_nil]

/-- A failure, rows that are not in order and a block without values, between blocks
that are taken in. -/
def rowdy : Script :=
  .create "child" sampleEmpty.schema
    [.answer (.block (sampleBlock [5, 15, 25, 35] [some 5, some 6, some 7, some 8] rfl)),
      .failure "broken", .answer (.block (sampleBlock [38, 36] [some 3, some 4] rfl)),
      .answer .notReady, .answer (.block ⟨"time", false, [36], [], nofun⟩),
      .answer (.block (sampleBlock [37] [some 9] rfl))] none

theorem insist_windowStage_rowdy :
    ∃ stage blocks needed calls parts,
      fourfold.windowStage (rowsAtMost 2) rowdy.schema = .ok stage ∧
      ScriptLine.Fits rowdy.schema.types stage.scan stage.aggregators rowdy.lines ∧
      drive 9 (Tree.window stage (.source (rowdy.calmed stage))) = .ok (some blocks) ∧
      (∀ rounds, (Tree.window stage (.source rowdy)).insist rounds =
        if needed < rounds then some calls else none) ∧
      List.Forall₂ (fun call part => part.length = call.closed ∧
        ∀ answer, call.outcome = .ok answer → part = answer.rows) calls parts ∧
      parts.flatten = blocks.flatMap Block.rows ∧
      (calls.flatMap Call.rows = blocks.flatMap Block.rows ↔
        ∀ call ∈ calls, ∀ e, call.outcome = .error e → call.closed = 0) := by
  obtain ⟨stage, blocks, accepted, fits, driven⟩ :
      ∃ stage blocks, fourfold.windowStage (rowsAtMost 2) rowdy.schema = .ok stage ∧
        ScriptLine.Fits rowdy.schema.types stage.scan stage.aggregators rowdy.lines ∧
        drive 9 (Tree.window stage (.source (rowdy.calmed stage))) = .ok (some blocks) := by
    refine ⟨_, _, rfl, ⟨fun b member taken => ?_, by decide⟩, rfl⟩
    simp only [rowdy, Script.create, List.mem_cons, List.not_mem_nil, or_false] at member
    rcases member with same | same | same | same | same | same <;> cases same
    · rfl
    · contradiction
    · contradiction
    · rfl
  obtain ⟨needed, calls, parts, insisted, all, flat, lossless, _⟩ :=
    insist_windowStage accepted (by simp [fourfold, Grouping.OnClock]; decide) fits driven
  exact ⟨stage, blocks, needed, calls, parts, accepted, fits, driven, insisted, all, flat, lossless⟩

def filled (line : ScriptLine) : Script :=
  .create "child" sampleEmpty.schema
    [.answer (.block (sampleBlock [5, 15, 25, 35] [some 5, some 6, some 7, some 8] rfl)), line] none

/-- Two counts over two columns, of the window from 0 to 10. -/
def twofold : Query where
  aggregations := [⟨.count, .single, [1], none⟩, ⟨.count, .single, [2], some "second"⟩]
  grouping := some ⟨0, 10, .millis 10, none, true⟩
  scan := .ascending
  keepsClipped := true

def twinned (line : ScriptLine) : Script :=
  let block : Block := ⟨"time", false, [5],
    [⟨"x", true, ⟨.int64, [some 1]⟩⟩, ⟨"y", true, ⟨.int64, [some 2]⟩⟩], by simp [Column.length]⟩
  .create "child" block.schema [.answer (.block block), line] none

/-- The row of a window that was closed before the child fails is lost. And a block that
misses a column has been counted by the aggregations before the one that reads it. -/
theorem insist_loses :
    (∃ stage blocks calls, fourfold.windowStage (rowsAtMost 2) (filled (.failure "broken")).schema =
        .ok stage ∧
      drive 9 (Tree.window stage (.source (filled (.answer .notReady)))) = .ok (some blocks) ∧
      (Tree.window stage (.source (filled (.failure "broken")))).insist 9 = some calls ∧
      (blocks.flatMap Block.rows).map (·.time) = [0, 10, 20, 30] ∧
      (calls.flatMap Call.rows).map (·.time) = [0, 10, 30]) ∧
    ∃ stage blocks calls,
      let narrow : ScriptLine := .answer (.block (sampleBlock [6] [some 6] rfl))
      twofold.windowStage (rowsAtMost 2) (twinned narrow).schema = .ok stage ∧
      drive 9 (Tree.window stage (.source (twinned (.answer .notReady)))) = .ok (some blocks) ∧
      (Tree.window stage (.source (twinned narrow))).insist 9 = some calls ∧
      blocks.flatMap Block.rows = [⟨0, [⟨.int64, some 1⟩, ⟨.int64, some 1⟩]⟩] ∧
      calls.flatMap Call.rows = [⟨0, [⟨.int64, some 2⟩, ⟨.int64, some 1⟩]⟩] :=
  ⟨⟨_, _, _, rfl, rfl, rfl, rfl, rfl⟩, _, _, _, rfl, rfl, rfl, rfl, rfl⟩

end Query
end WindowFold
