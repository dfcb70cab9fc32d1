import WindowFold.Operator.Source
import WindowFold.Operator.Tree
import WindowFold.Proofs.Rows

/-! What an operator gives when it is pulled by the rules: asked for its
readiness before every pull, it hands out its rows in blocks, with waits in
between, and then the end. -/
namespace WindowFold

namespace Answer

def rows : Answer → List Row
  | block b => b.rows
  | notReady | endOfStream => []

/-- The block of an answer, if it has one. -/
def blocks : Answer → List Block
  | block b => [b]
  | notReady | endOfStream => []

theorem flatMap_blocks (answer : Answer) : answer.blocks.flatMap Block.rows = answer.rows := by
  cases answer <;> simp [blocks, rows]

/-- The answer gives the first of the rows and leaves the rest. -/
structure Leaves (types : List ScalarType) (rows rest : List Row) (answer : Answer) : Prop where
  given : rows = answer.rows ++ rest
  typed : ∀ b, answer = .block b → b.schema.types = types
  ended : answer = .endOfStream → rest = []

end Answer

variable {σ : Type} [Operator σ]

/-- States that nothing but readiness checks lead to. -/
inductive Asked (s : σ) : σ → Prop
  | never : Asked s s
  | again {t : σ} : Asked s t → Asked s (Operator.readiness t).2

theorem Asked.trans {s t u : σ} (first : Asked s t) (later : Asked t u) : Asked s u := by
  induction later with
  | never => exact first
  | again _ ih => exact ih.again

/-- What an operator tells of itself between pulls: that more comes, if rows do,
and that it is ready, if it always is. -/
structure Tells (prompt : Bool) (rows : List Row) (s : σ) : Prop where
  more : ∃ more, Operator.hasNext s = .ok more ∧ (more = false → rows = [])
  ready : prompt = true → (Operator.readiness s).1 = .ready

/-- Pulled `pulls` times at most, the operator gives these rows and ends. It has
been asked for its readiness, and asking more often changes nothing. -/
def Poised (types : List ScalarType) (prompt : Bool) : Nat → List Row → σ → Prop
  | 0, _, _ => False
  | pulls + 1, rows, s => ∀ t, Asked s t → Tells prompt rows t ∧
      ∃ answer u rest, Operator.next t = (.ok answer, u) ∧ answer.Leaves types rows rest ∧
        (answer ≠ .endOfStream →
          Tells prompt rest u ∧ Poised types prompt pulls rest (Operator.readiness u).2)

/-- The same of an operator that is still to be asked. -/
def Yields (types : List ScalarType) (prompt : Bool) (pulls : Nat) (rows : List Row) (s : σ) :
    Prop :=
  Tells prompt rows s ∧ Poised types prompt pulls rows (Operator.readiness s).2

variable {types : List ScalarType} {prompt : Bool} {pulls : Nat} {rows : List Row} {s : σ}

theorem Poised.asked {t : σ} (poised : Poised types prompt pulls rows s) (asked : Asked s t) :
    Poised types prompt pulls rows t := by
  cases pulls with
  | zero => exact poised
  | succ pulls => exact fun u later => poised u (asked.trans later)

theorem Poised.tells (poised : Poised types prompt pulls rows s) : Tells prompt rows s := by
  cases pulls with
  | zero => exact poised.elim
  | succ pulls => exact (poised s .never).1

theorem Poised.yields (poised : Poised types prompt pulls rows s) :
    Yields types prompt pulls rows s :=
  ⟨poised.tells, poised.asked (.again .never)⟩

/-- Asks for the readiness and pulls, for so many rounds: the blocks given up to
the end, or nothing if it is not reached. -/
def drive : (rounds : Nat) → σ → Except Failure (Option (List Block))
  | 0, _ => .ok none
  | rounds + 1, s =>
    match Operator.next (Operator.readiness s).2 with
    | (.error e, _) => .error e
    | (.ok .endOfStream, _) => .ok (some [])
    | (.ok .notReady, s) => drive rounds s
    | (.ok (.block block), s) => (drive rounds s).map (·.map (block :: ·))

/-- The end is reached after the first pull, or after that and further rounds. -/
theorem exists_of_drive {rounds : Nat} {blocks : List Block}
    (driven : drive rounds s = .ok (some blocks)) :
    ∃ fewer answer t, rounds = fewer + 1 ∧
      Operator.next (Operator.readiness s).2 = (.ok answer, t) ∧
      (answer = .endOfStream ∧ blocks = [] ∨ answer ≠ .endOfStream ∧
        ∃ more, drive fewer t = .ok (some more) ∧ blocks = answer.blocks ++ more) := by
  cases rounds with
  | zero => cases driven
  | succ fewer =>
    rw [drive] at driven
    rcases pulled : Operator.next (Operator.readiness s).2 with ⟨e | answer, t⟩
    · rw [pulled] at driven
      cases driven
    · rw [pulled] at driven
      refine ⟨fewer, answer, t, rfl, rfl, ?_⟩
      cases answer with
      | endOfStream =>
        cases driven
        exact .inl ⟨rfl, rfl⟩
      | notReady => exact .inr ⟨nofun, blocks, driven, rfl⟩
      | block block =>
        rcases later : drive fewer t with e | _ | more
        · simp only [later] at driven
          cases driven
        · simp only [later] at driven
          cases driven
        · simp only [later] at driven
          cases driven
          exact .inr ⟨nofun, more, rfl, rfl⟩

/-- Driven long enough, the operator comes to its end without a failure. -/
theorem Yields.drive_eq (yields : Yields types prompt pulls rows s) :
    ∃ blocks needed,
      (∀ rounds, drive rounds s = .ok (if needed < rounds then some blocks else none)) ∧
      blocks.flatMap Block.rows = rows ∧ ∀ b ∈ blocks, b.schema.types = types := by
  induction pulls generalizing rows s with
  | zero => exact yields.2.elim
  | succ pulls ih =>
    obtain ⟨_, answer, t, rest, pulled, leaves, later⟩ := yields.2 _ .never
    cases answer with
    | endOfStream =>
      refine ⟨[], 0, fun rounds => ?_, ?_, by simp⟩
      · cases rounds <;> simp [drive, pulled]
      · simp [leaves.given, leaves.ended rfl, Answer.rows]
    | notReady =>
      obtain ⟨blocks, needed, driven, same, typed⟩ := ih (later (by simp))
      refine ⟨blocks, needed + 1, fun rounds => ?_, ?_, typed⟩
      · cases rounds <;> simp [drive, pulled, driven]
      · simpa [leaves.given, Answer.rows] using same
    | block block =>
      obtain ⟨blocks, needed, driven, same, typed⟩ := ih (later (by simp))
      refine ⟨block :: blocks, needed + 1, fun rounds => ?_, ?_, ?_⟩
      · cases rounds with
        | zero => simp [drive]
        | succ rounds =>
          simp only [drive, pulled, driven, Except.map, Nat.add_lt_add_iff_right]
          split <;> rfl
      · simp [leaves.given, Answer.rows, same]
      · intro b member
        rcases List.mem_cons.1 member with rfl | later
        · exact leaves.typed _ rfl
        · exact typed b later

/-- An operator that does what another does. -/
structure Embeds {τ : Type} [Operator τ] (f : σ → τ) : Prop where
  hasNext : ∀ s, Operator.hasNext (f s) = Operator.hasNext s
  readiness : ∀ s, Operator.readiness (f s) = (Operator.readiness s).map id f
  next : ∀ s, Operator.next (f s) = (Operator.next s).map id f

section
variable {τ : Type} [Operator τ] {f : σ → τ}

theorem Embeds.asked (embeds : Embeds f) {t : τ} (asked : Asked (f s) t) :
    ∃ u, Asked s u ∧ t = f u := by
  induction asked with
  | never => exact ⟨s, .never, rfl⟩
  | again _ ih =>
    obtain ⟨u, asked, rfl⟩ := ih
    exact ⟨_, asked.again, by rw [embeds.readiness]; rfl⟩

theorem Tells.map (embeds : Embeds f) (tells : Tells prompt rows s) : Tells prompt rows (f s) where
  more := by rw [embeds.hasNext]; exact tells.more
  ready := by rw [embeds.readiness]; exact tells.ready

theorem Poised.map (embeds : Embeds f) (poised : Poised types prompt pulls rows s) :
    Poised types prompt pulls rows (f s) := by
  induction pulls generalizing rows s with
  | zero => exact poised
  | succ pulls ih =>
    intro t asked
    obtain ⟨u, same, rfl⟩ := embeds.asked asked
    obtain ⟨tells, answer, v, rest, pulled, leaves, later⟩ := poised u same
    refine ⟨tells.map embeds, answer, f v, rest, by rw [embeds.next, pulled]; rfl, leaves, ?_⟩
    intro going
    obtain ⟨tells, poised⟩ := later going
    refine ⟨tells.map embeds, ?_⟩
    rw [embeds.readiness]
    exact ih poised

theorem Yields.map (embeds : Embeds f) (yields : Yields types prompt pulls rows s) :
    Yields types prompt pulls rows (f s) := by
  refine ⟨yields.1.map embeds, ?_⟩
  rw [embeds.readiness]
  exact Poised.map (f := f) embeds yields.2

end

theorem Tree.lanes_eq (inlets : List (Inlet (Tree σ))) :
    Tree.lanes inlets = inlets.map fun inlet => ⟨inlet, fun _ => Operator.next inlet.child⟩ := by
  induction inlets with
  | nil => rw [Tree.lanes]; rfl
  | cons inlet rest ih =>
    obtain ⟨child, held, mayPull, ended⟩ := inlet
    rw [Tree.lanes, ih, Tree.lane]
    rfl

theorem Tree.inlet_lanes (inlets : List (Inlet (Tree σ))) :
    (Tree.lanes inlets).map (·.inlet) = inlets := by
  rw [Tree.lanes_eq, List.map_map]
  exact List.map_id _

theorem Tree.embeds_source : Embeds (Tree.source : σ → Tree σ) where
  hasNext _ := rfl
  readiness _ := rfl
  next _ := rfl

theorem Source.embeds_script : Embeds Source.script where
  hasNext _ := rfl
  readiness _ := rfl
  next _ := rfl

theorem Source.embeds_replay : Embeds Source.replay where
  hasNext _ := rfl
  readiness _ := rfl
  next _ := rfl

namespace Script
variable {s : Script} {answers : List Answer}

theorem of_asked {t : Script} (asked : Asked s t) :
    t.lines = s.lines ∧ (s.awaiting = false → t.awaiting = false) := by
  induction asked with
  | never => exact ⟨rfl, id⟩
  | again _ ih => exact ⟨ih.1, fun _ => rfl⟩

theorem tells (script : s.lines = answers.map .answer) :
    Tells prompt (answers.flatMap Answer.rows) s where
  more := by
    refine ⟨_, rfl, fun none => ?_⟩
    cases answers with
    | nil => rfl
    | cons => simp [script] at none
  ready _ := rfl

/-- A script of answers is played from its first line to its last. -/
theorem poised (script : s.lines = answers.map .answer) (asked : s.awaiting = false)
    (running : Answer.endOfStream ∉ answers)
    (typed : ∀ b, Answer.block b ∈ answers → b.schema.types = types) :
    Poised types prompt (answers.length + 1) (answers.flatMap Answer.rows) s := by
  induction answers generalizing s with
  | nil =>
    intro t later
    obtain ⟨lines, awaiting⟩ := of_asked later
    refine ⟨tells (lines.trans script), .endOfStream, { t with pulls := t.pulls + 1 }, [], ?_,
      ⟨rfl, nofun, fun _ => rfl⟩, fun going => absurd rfl going⟩
    simp only [Operator.next, Script.next, awaiting asked, lines, script]
    rfl
  | cons answer rest ih =>
    intro t later
    obtain ⟨lines, awaiting⟩ := of_asked later
    have going : answer ≠ .endOfStream := fun ended => running (ended ▸ List.mem_cons_self)
    refine ⟨tells (lines.trans script), answer,
      { t with pulls := t.pulls + 1, lines := rest.map .answer, awaiting := answer = .notReady },
      rest.flatMap Answer.rows, ?_, ⟨rfl, fun b same => ?_, fun ended => absurd ended going⟩,
      fun _ => ⟨tells rfl, ih rfl rfl ?_ ?_⟩⟩
    · simp only [Operator.next, Script.next, awaiting asked, lines, script]
      rfl
    · exact typed b (same ▸ List.mem_cons_self)
    · exact fun member => running (List.mem_cons_of_mem _ member)
    · exact fun b member => typed b (List.mem_cons_of_mem _ member)

theorem yields (script : s.lines = answers.map .answer) (running : Answer.endOfStream ∉ answers)
    (typed : ∀ b, Answer.block b ∈ answers → b.schema.types = types) :
    Yields types prompt (answers.length + 1) (answers.flatMap Answer.rows) s :=
  ⟨tells script, poised script rfl running typed⟩

end Script

namespace Replay
variable {r : Replay}

theorem of_asked {t : Replay} (asked : Asked r t) : t = r := by
  induction asked with
  | never => rfl
  | again _ ih => exact ih

theorem tells (running : r.closed = false) : Tells prompt (r.blocks.flatMap Block.rows) r where
  more := by
    refine ⟨_, rfl, fun none => ?_⟩
    simp only [hasNext, running, Bool.not_false, Bool.true_and, Bool.not_eq_false',
      List.isEmpty_iff] at none
    rw [none]
    rfl
  ready _ := rfl

/-- The blocks of a list come one after the other. -/
theorem poised (running : r.closed = false) (typed : ∀ b ∈ r.blocks, b.schema.types = types) :
    Poised types prompt (r.blocks.length + 1) (r.blocks.flatMap Block.rows) r := by
  generalize given : r.blocks = blocks at typed
  induction blocks generalizing r with
  | nil =>
    intro t later
    rw [of_asked later]
    refine ⟨given ▸ tells running, .endOfStream, r, [], ?_, ⟨rfl, nofun, fun _ => rfl⟩,
      fun going => absurd rfl going⟩
    simp only [Operator.next, Replay.next, running, given]
    rfl
  | cons block rest ih =>
    intro t later
    rw [of_asked later]
    refine ⟨given ▸ tells running, .block block, { r with blocks := rest },
      rest.flatMap Block.rows, ?_, ⟨rfl, fun b same => ?_, nofun⟩, fun _ => ⟨?_, ?_⟩⟩
    · simp only [Operator.next, Replay.next, running, given]
      rfl
    · cases same
      exact typed block List.mem_cons_self
    · exact tells (r := { r with blocks := rest }) running
    · exact ih running rfl
        fun b member => typed b (List.mem_cons_of_mem _ member)

theorem yields (running : r.closed = false) (typed : ∀ b ∈ r.blocks, b.schema.types = types) :
    Yields types prompt (r.blocks.length + 1) (r.blocks.flatMap Block.rows) r :=
  (poised running typed).yields

end Replay
end WindowFold
