import WindowFold.Proofs.Requests
import WindowFold.Proofs.Spacing

/-! The same windows in either direction. A cursor that goes down meets what one that goes
up meets, the last first; both stop for good when all windows are met. The times written to
the rows of a stage follow the scan, so whoever scans in the same direction takes them. -/
namespace WindowFold

/-- What the cursor says in `n` calls: whether there is a next window before the call, and
the range that is given with the output time after it. A call past the last is repeated. -/
def Cursor.calls : Nat → Cursor → List (Bool × Option (TimeRange × Timestamp))
  | 0, _ => []
  | n + 1, c =>
    match c.next? with
    | none => (c.hasNext, none) :: calls n c
    | some (window, d) => (c.hasNext, some (window.range, d.outputTime)) :: calls n d

/-- Each of the things told is announced; after them nothing is. -/
def Cursor.tells (told : List (TimeRange × Timestamp)) (n : Nat) :
    List (Bool × Option (TimeRange × Timestamp)) :=
  (told.take n).map (fun window => (true, some window)) ++
    List.replicate (n - told.length) (false, none)

namespace Cursor

theorem calls_eq (n : Nat) (c : Cursor) :
    c.calls n = tells (c.left.map fun w => (w.range, w.outputTime)) n := by
  induction n generalizing c with
  | zero => simp [calls, tells]
  | succ n ih =>
    rw [calls, hasNext_eq]
    cases met : c.next? with
    | none =>
      have spent := left_of_next? met
      simp only [ih, spent]
      simp [tells, List.replicate_succ]
    | some next =>
      obtain ⟨w, d⟩ := next
      have first := (of_next? met).1
      simp only [ih, first, outputTime_next? met]
      simp [tells]

theorem calls_start (series : WindowSeries) (scan : Scan) (n : Nat) :
    (start series scan).calls n =
      tells ((series.scanned scan).map fun w => (w.range, w.outputTime)) n := by
  rw [calls_eq, left_start]

end Cursor

theorem WindowSeries.outputTime_lt {grouping : Option Grouping} {keepsClipped : Bool}
    {series : WindowSeries} (clock : ∀ g ∈ grouping, g.OnClock)
    (made : ofGrouping? grouping keepsClipped = .ok series) :
    series.toList.Pairwise fun w v => w.outputTime < v.outputTime := by
  have real := contains_outputTime clock made
  refine (List.Pairwise.and_mem.1 (toList_apart clock made)).imp fun {w v} both => ?_
  obtain ⟨first, second, apart⟩ := both
  have inside := real w first
  have within := real v second
  simp only [TimeRange.contains, Bool.and_eq_true, decide_eq_true_eq, Timestamp] at *
  omega

theorem Block.checkScanOrder_of_times {block : Block} {scan : Scan}
    (ordered : block.times.Pairwise fun t u => scan.inOrder t u = true) :
    block.checkScanOrder scan = .ok () := by
  rw [Block.checkScanOrder_eq_ok_iff]
  rw [← Block.map_time_rows] at ordered
  exact List.pairwise_map.1 ordered

theorem Serves.checkScanOrder {scan : Scan} {todo left : List Window} {blocks : List Block}
    (serves : Serves todo left blocks) (turn : InTurn scan todo) :
    ∀ block ∈ blocks, block.checkScanOrder scan = .ok () := by
  obtain ⟨served, part, times⟩ := serves
  intro block member
  apply Block.checkScanOrder_of_times
  have own : block.times.Sublist (blocks.flatMap (·.times)) := by
    rw [List.flatMap_def]
    exact List.sublist_flatten_of_mem (List.mem_map_of_mem member)
  rw [times] at own
  have early := (List.sublist_append_left served left).trans part
  exact (List.pairwise_map.2 turn.times_inOrder).sublist (own.trans (early.map _))

section
variable {grouping : Option Grouping} {keepsClipped : Bool} {series : WindowSeries}

/-- Of every accepted grouping the windows are told in either direction in opposite orders,
each once and each with its output time in it, and with nothing said afterwards. The
output times ascend, and all blocks of the stage of a query pass the check of its scan. -/
theorem WindowSeries.calls_retrace (clock : ∀ g ∈ grouping, g.OnClock)
    (made : ofGrouping? grouping keepsClipped = .ok series) :
    ∃ told : List (TimeRange × Timestamp), told.length = series.count ∧
      (∀ n, (Cursor.start series .ascending).calls n = Cursor.tells told n) ∧
      (∀ n, (Cursor.start series .descending).calls n = Cursor.tells told.reverse n) ∧
      (∀ window ∈ told, window.1.contains window.2 = true) ∧
      (told.Pairwise fun window later => window.2 < later.2) ∧
      ∀ (q : Query), q.grouping = grouping → ∀ {σ : Type} [Operator σ] {context : Context}
        {tree : Tree σ}, q.Tops context tree keepsClipped → ∀ events : List (Happening σ),
        ∀ block ∈ tree.handedOutBy events, block.checkScanOrder q.scan = .ok () := by
  refine ⟨series.toList.map fun w => (w.range, w.outputTime), ?_, ?_, ?_, ?_, ?_, ?_⟩
  · rw [List.length_map, ← series.length_scanned .ascending]
    rfl
  · exact fun n => Cursor.calls_start series .ascending n
  · intro n
    rw [Cursor.calls_start, ← List.map_reverse]
    rfl
  · exact List.forall_mem_map.2 (contains_outputTime clock made)
  · exact List.pairwise_map.2 (outputTime_lt clock made)
  · rintro q rfl σ _ context tree tops events
    obtain ⟨series', windows, todo⟩ := tops.exists_series
    obtain ⟨left, serves⟩ := tree.serves_events todo events
    exact serves.checkScanOrder (inTurn q.scan clock windows)

end

def Grouping.uneven : Grouping where
  start := -5
  stop := 20
  interval := .millis 10
  slidingStep := none
  leftClosed := false

/-- Without the half window the walk down starts at the second. -/
theorem WindowSeries.calls_retrace_uneven :
    (∀ g ∈ some Grouping.uneven, g.OnClock) ∧
    ∃ series, ofGrouping? (some .uneven) false = .ok series ∧
      ∃ told : List (TimeRange × Timestamp), told.length = series.count ∧
        (∀ n, (Cursor.start series .ascending).calls n = Cursor.tells told n) ∧
        (∀ n, (Cursor.start series .descending).calls n = Cursor.tells told.reverse n) ∧
        (Cursor.start series .descending).calls 3 =
          [(true, some (⟨6, 15⟩, 15)), (true, some (⟨-4, 5⟩, 5)), (false, none)] := by
  have clock : ∀ g ∈ some Grouping.uneven, g.OnClock := by
    rintro g ⟨⟩
    exact ⟨by decide, by decide⟩
  have made : ofGrouping? (some .uneven) false = .ok (.fixed (-5) 20 10 10 false 2) := by decide
  obtain ⟨told, number, up, down, _⟩ := calls_retrace clock made
  exact ⟨clock, _, made, told, number, up, down, by decide⟩

end WindowFold
