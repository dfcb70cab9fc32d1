import WindowFold.Proofs.Buffering
import WindowFold.Proofs.Pulls

/-! What a stage answers at the end of a call: the rows that it holds, or that
there are none yet, or that it has come to its end. -/
namespace WindowFold

namespace RowBuffer

/-- The answer, where `more` tells whether there are rows to come. -/
def answer (b : RowBuffer) (more : Bool) : Attempt RowBuffer Answer :=
  if b.isEmpty then (.ok (if more then .notReady else .endOfStream), b)
  else (b.build.map (·.map .block) id)

theorem Holds.answer {b : RowBuffer} {fields : Schema} {all rows rest : List Row} {more : Bool}
    (nullable : ∀ f ∈ fields, f.nullable = true) (holds : b.Holds (Block.timeField :: fields) rows)
    (split : all = rows ++ rest) (last : more = false ↔ rest = []) :
    ∃ answer c, b.answer more = (.ok answer, c) ∧ c.Holds (Block.timeField :: fields) [] ∧
      answer.Leaves (Schema.types (Block.timeField :: fields)) all rest ∧
      (answer ≠ .endOfStream → rows ≠ [] ∨ rest ≠ []) := by
  rw [RowBuffer.answer, holds.isEmpty_eq]
  cases rows with
  | nil =>
    cases more with
    | true =>
      have going : rest ≠ [] := fun none => absurd (last.2 none) nofun
      exact ⟨.notReady, b, rfl, holds, ⟨split, nofun, nofun⟩, fun _ => .inr going⟩
    | false =>
      exact ⟨.endOfStream, b, rfl, holds, ⟨split, nofun, fun _ => last.1 rfl⟩,
        fun going => absurd rfl going⟩
  | cons r others =>
    obtain ⟨block, c, built, rows, schema, cleared⟩ := holds.build nullable
    refine ⟨.block block, c, by rw [built]; rfl, cleared, ⟨?_, ?_, nofun⟩, fun _ => .inl nofun⟩
    · rw [split, Answer.rows, rows]
    · intro b same
      cases same
      rw [schema]

/-- The buffer has the size of these limits. -/
structure Sized (limits : Limits) (b : RowBuffer) : Prop where
  rows : b.maxRows = max limits.rows 1
  bytes : b.maxBytes = max limits.bytes 1

variable {limits : Limits} {b c : RowBuffer}

theorem Sized.not_full (sized : b.Sized limits) (times : b.times = []) (bytes : b.bytes = 0) :
    b.isFull = false := by
  have rows := sized.rows
  have size := sized.bytes
  simp only [isFull, rowCount, times, bytes, List.length_nil, Bool.or_eq_false_iff,
    decide_eq_false_iff_not]
  omega

/-- What a call does to the buffer keeps the property. -/
structure Lasts (P : RowBuffer → Prop) : Prop where
  clear : ∀ {b : RowBuffer}, P b → P b.clear
  append : ∀ {b c : RowBuffer} {time : Timestamp} {values : List Scalar},
    b.append time values = .ok c → P b → P c
  answer : ∀ {b : RowBuffer} (more : Bool), P b → P (b.answer more).2

theorem Sized.append (sized : b.Sized limits) {time : Timestamp} {values : List Scalar}
    (appended : b.append time values = .ok c) : c.Sized limits := by
  unfold RowBuffer.append at appended
  split at appended
  · contradiction
  · cases appended
    exact ⟨sized.rows, sized.bytes⟩

theorem Sized.answer (sized : b.Sized limits) (more : Bool) : (b.answer more).2.Sized limits := by
  rw [RowBuffer.answer]
  split
  · exact sized
  · rw [build]
    dsimp only
    split <;> exact ⟨sized.rows, sized.bytes⟩

theorem Sized.lasts (limits : Limits) : Lasts (Sized limits) where
  clear sized := ⟨sized.rows, sized.bytes⟩
  append added sized := sized.append added
  answer more sized := sized.answer more

end RowBuffer

theorem WindowStage.answer_eq (w : WindowStage) :
    w.answer = (w.buffer.answer w.hasNext).map id fun b => { w with buffer := b } := by
  rw [answer, RowBuffer.answer]
  cases w.buffer.isEmpty <;> cases w.hasNext <;> rfl

theorem MergeStage.answer_eq (m : MergeStage) :
    m.answer = (m.buffer.answer m.hasNext).map id fun b => { m with buffer := b } := by
  rw [answer, RowBuffer.answer]
  cases m.buffer.isEmpty <;> cases m.hasNext <;> rfl

end WindowFold
