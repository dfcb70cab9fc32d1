import WindowFold.Proofs.Pulls

/-! Operators whose answers are known one by one. Such an operator is always
ready, and how often it is asked for its readiness makes no difference. -/
namespace WindowFold

namespace Answer

/-- The block of an answer, if it has rows. -/
def filled? : Answer → Option Block
  | block b => if b.isEmpty then none else some b
  | notReady | endOfStream => none

theorem filterMap_filled {answers : List Answer}
    (some : ∀ block ∈ answers.flatMap blocks, block.rows ≠ []) :
    answers.filterMap filled? = answers.flatMap blocks := by
  induction answers with
  | nil => rfl
  | cons answer rest ih =>
    have later := ih fun block member => some block (List.mem_append_right _ member)
    cases answer with
    | notReady | endOfStream => exact later
    | block b =>
      have filled : (block b).filled? = Option.some b := if_neg fun none =>
        some b (List.mem_append_left _ (List.mem_singleton.2 rfl)) ((Block.isEmpty_iff b).1 none)
      rw [List.filterMap_cons_some filled, later]
      rfl

end Answer

variable {σ : Type} [Operator σ]

/-- What an operator tells of itself that has these answers to give. -/
structure Shows (answers : List Answer) (s : σ) : Prop where
  more : Operator.hasNext s = .ok !answers.isEmpty
  ready : (Operator.readiness s).1 = .ready

/-- Pulled again and again, the operator gives these answers and then ends. It has
been asked for its readiness, and asking more often changes nothing. -/
def Primed : List Answer → σ → Prop
  | [], s => ∀ t, Asked s t → Shows [] t ∧ ∃ u, Operator.next t = (.ok .endOfStream, u)
  | answer :: rest, s => ∀ t, Asked s t → Shows (answer :: rest) t ∧ answer ≠ .endOfStream ∧
      ∃ u, Operator.next t = (.ok answer, u) ∧ Shows rest u ∧ Primed rest (Operator.readiness u).2

/-- The same of an operator that is still to be asked. -/
def Plays (answers : List Answer) (s : σ) : Prop :=
  Shows answers s ∧ Primed answers (Operator.readiness s).2

variable {answers : List Answer} {s : σ}

theorem Primed.asked {t : σ} (primed : Primed answers s) (asked : Asked s t) :
    Primed answers t := by
  cases answers with
  | nil => exact fun u later => primed u (asked.trans later)
  | cons answer rest => exact fun u later => primed u (asked.trans later)

theorem Primed.shows (primed : Primed answers s) : Shows answers s := by
  cases answers with
  | nil => exact (primed s .never).1
  | cons answer rest => exact (primed s .never).1

theorem Primed.running (primed : Primed answers s) : Answer.endOfStream ∉ answers := by
  induction answers generalizing s with
  | nil => exact List.not_mem_nil
  | cons answer rest ih =>
    obtain ⟨_, going, _, _, _, later⟩ := primed s .never
    exact fun member => (List.mem_cons.1 member).elim (fun same => going same.symm) (ih later)

theorem Primed.plays (primed : Primed answers s) : Plays answers s :=
  ⟨primed.shows, primed.asked (.again .never)⟩

section
variable {τ : Type} [Operator τ] {f : σ → τ}

theorem Shows.map (embeds : Embeds f) (shows : Shows answers s) : Shows answers (f s) where
  more := by rw [embeds.hasNext]; exact shows.more
  ready := by rw [embeds.readiness]; exact shows.ready

theorem Primed.map (embeds : Embeds f) (primed : Primed answers s) : Primed answers (f s) := by
  induction answers generalizing s with
  | nil =>
    intro t asked
    obtain ⟨u, same, rfl⟩ := embeds.asked asked
    obtain ⟨shows, v, ended⟩ := primed u same
    exact ⟨shows.map embeds, f v, by rw [embeds.next, ended]; rfl⟩
  | cons answer rest ih =>
    intro t asked
    obtain ⟨u, same, rfl⟩ := embeds.asked asked
    obtain ⟨shows, going, v, given, after, later⟩ := primed u same
    refine ⟨shows.map embeds, going, f v, by rw [embeds.next, given]; rfl, after.map embeds, ?_⟩
    rw [embeds.readiness]
    exact ih later

theorem Plays.map (embeds : Embeds f) (plays : Plays answers s) : Plays answers (f s) := by
  refine ⟨plays.1.map embeds, ?_⟩
  rw [embeds.readiness]
  exact Primed.map (f := f) embeds plays.2

end

namespace Script
variable {s : Script}

theorem shows (script : s.lines = answers.map .answer) : Shows answers s where
  more := by cases answers <;> simp [Operator.hasNext, script]
  ready := rfl

/-- A script of answers is played from its first line to its last. -/
theorem primed (script : s.lines = answers.map .answer) (asked : s.awaiting = false)
    (running : Answer.endOfStream ∉ answers) : Primed answers s := by
  induction answers generalizing s with
  | nil =>
    intro t later
    obtain ⟨lines, awaiting⟩ := of_asked later
    refine ⟨shows (lines.trans script), { t with pulls := t.pulls + 1 }, ?_⟩
    simp only [Operator.next, Script.next, awaiting asked, lines, script]
    rfl
  | cons answer rest ih =>
    intro t later
    obtain ⟨lines, awaiting⟩ := of_asked later
    have going : answer ≠ .endOfStream := fun ended => running (ended ▸ List.mem_cons_self)
    refine ⟨shows (lines.trans script), going,
      { t with pulls := t.pulls + 1, lines := rest.map .answer, awaiting := answer = .notReady },
      ?_, shows rfl, ih rfl rfl fun member => running (List.mem_cons_of_mem _ member)⟩
    simp only [Operator.next, Script.next, awaiting asked, lines, script]
    rfl

theorem plays (script : s.lines = answers.map .answer) (running : Answer.endOfStream ∉ answers) :
    Plays answers s :=
  ⟨shows script, primed script rfl running⟩

end Script

namespace Replay
variable {r : Replay}

theorem shows {blocks : List Block} (running : r.closed = false) (given : r.blocks = blocks) :
    Shows (blocks.map .block) r where
  more := by simp [Operator.hasNext, Replay.hasNext, running, given]
  ready := rfl

/-- The blocks of a list come one after the other. -/
theorem primed {blocks : List Block} (running : r.closed = false) (given : r.blocks = blocks) :
    Primed (blocks.map .block) r := by
  induction blocks generalizing r with
  | nil =>
    intro t later
    rw [of_asked later]
    refine ⟨shows running given, r, ?_⟩
    simp only [Operator.next, Replay.next, running, given]
    rfl
  | cons block rest ih =>
    intro t later
    rw [of_asked later]
    refine ⟨shows running given, by simp, { r with blocks := rest }, ?_,
      shows (r := { r with blocks := rest }) running rfl,
      ih (r := { r with blocks := rest }) running rfl⟩
    simp only [Operator.next, Replay.next, running, given]
    rfl

theorem plays (running : r.closed = false) : Plays (r.blocks.map .block) r :=
  (primed running rfl).plays

end Replay
end WindowFold
