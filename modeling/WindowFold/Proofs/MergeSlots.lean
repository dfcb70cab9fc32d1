import WindowFold.Proofs.ClippedQueries
import WindowFold.Proofs.FanIn
import WindowFold.Proofs.Filling
import WindowFold.Proofs.MergeCalls
import WindowFold.Proofs.Shapes

/-! What the inlets of a merge hold, over any history: the rows of the last block taken
in that lie past every window closed since. A child is pulled for an inlet that holds
none, and a window is computed when no inlet needs anything. -/
namespace WindowFold

section
variable {α : Type} {p q : α → Bool} {l : List α}

theorem takeWhile_congr (same : ∀ x ∈ l, p x = q x) : l.takeWhile p = l.takeWhile q := by
  induction l with
  | nil => rfl
  | cons x rest ih =>
    rw [List.takeWhile_cons, List.takeWhile_cons, same x List.mem_cons_self,
      ih fun y member => same y (List.mem_cons_of_mem _ member)]

theorem length_takeWhile_and (stays : l.Pairwise fun x y => p x = true → p y = true) :
    (l.takeWhile fun x => !(p x && q x)).length =
      (l.takeWhile (!p ·)).length + ((l.dropWhile (!p ·)).takeWhile (!q ·)).length := by
  induction stays with
  | nil => rfl
  | @cons x rest first _ ih =>
    cases holds : p x with
    | false =>
      rw [List.takeWhile_cons_of_pos (by simp [holds]),
        List.takeWhile_cons_of_pos (by simp [holds]), List.dropWhile_cons_of_pos (by simp [holds]),
        List.length_cons, List.length_cons, ih]
      omega
    | true =>
      have all : ∀ y ∈ x :: rest, (!(p y && q y)) = !q y := by
        intro y member
        rcases List.mem_cons.1 member with rfl | later
        · rw [holds, Bool.true_and]
        · rw [first y later holds, Bool.true_and]
      rw [takeWhile_congr all, List.takeWhile_cons_of_neg (p := (!p ·)) (by simp [holds]),
        List.dropWhile_cons_of_neg (by simp [holds]), List.length_nil, Nat.zero_add]

end

namespace Block
variable {b : Block} {scan : Scan} {windows : List Window} {window : Window}

/-- The rows past all of the windows. -/
def pastAll (b : Block) (scan : Scan) (windows : List Window) : Block :=
  b.sliceFrom (b.times.takeWhile fun t => !windows.all (·.range.isPassedBy scan t)).length

theorem pastAll_nil (b : Block) (scan : Scan) : b.pastAll scan [] = b := by
  have none : (b.times.takeWhile fun t =>
      !([] : List Window).all (·.range.isPassedBy scan t)) = [] := by
    cases b.times <;> rfl
  rw [pastAll, none]
  exact b.sliceFrom_zero

theorem stays_past (ordered : scan.Ordered b.rows) (windows : List Window) :
    b.times.Pairwise fun t u => windows.all (·.range.isPassedBy scan t) = true →
      windows.all (·.range.isPassedBy scan u) = true := by
  rw [← map_time_rows, List.pairwise_map]
  refine List.Pairwise.imp (fun order all => ?_) ordered
  simp only [List.all_eq_true] at all ⊢
  exact fun window member => TimeRange.isPassedBy_of_inOrder order (all window member)

theorem skipPast_pastAll (ordered : scan.Ordered b.rows) (windows : List Window)
    (window : Window) : (b.pastAll scan windows).skipPast window.range scan =
      b.pastAll scan (windows ++ [window]) := by
  have cut := length_takeWhile_and (q := window.range.isPassedBy scan)
    (stays_past ordered windows)
  have both : ∀ t, (windows ++ [window]).all (·.range.isPassedBy scan t) =
      (windows.all (·.range.isPassedBy scan t) && window.range.isPassedBy scan t) := by simp
  rw [skipPast, pastAll, rowsUpTo, times_sliceFrom, drop_length_takeWhile, sliceFrom_sliceFrom,
    pastAll]
  simp only [both]
  rw [cut]

/-- The rows that are left are just those past every window. -/
theorem rows_pastAll (ordered : scan.Ordered b.rows) (windows : List Window) :
    (b.pastAll scan windows).rows =
      b.rows.filter fun r => windows.all (r.past ·.range scan) := by
  rw [pastAll, rows_sliceFrom, takeWhile_times, drop_length_takeWhile]
  rw [dropWhile_eq_filter (R := fun r s : Row => scan.inOrder r.time s.time = true) ?_ ordered]
  · simp [Row.past]
  intro r s order early
  simp only [Bool.not_eq_true', ← Bool.not_eq_true, List.all_eq_true] at early ⊢
  exact fun all => early fun window member =>
    TimeRange.isPassedBy_of_inOrder order (all window member)

end Block

/-- What is known of an inlet: the block taken in last, and the windows closed since. -/
abbrev Known := Option (Block × List Window)

/-- What an inlet holds of the block taken in last. -/
def Known.remains (scan : Scan) : Known → Option Block
  | none => none
  | some (block, windows) => (some (block.pastAll scan windows)).filter (!·.isEmpty)

def Known.close (known : Known) (window : Window) : Known :=
  known.map fun (block, windows) => (block, windows ++ [window])

namespace Known
variable {scan : Scan} {known : Known}

theorem remains_fresh {block : Block} (some_ : block.isEmpty = false) :
    remains scan (some (block, [])) = some block := by
  rw [remains, Block.pastAll_nil]
  simp [some_]

theorem remains_close (ordered : ∀ block windows, known = some (block, windows) →
      scan.Ordered block.rows) (window : Window) :
    (known.close window).remains scan =
      ((known.remains scan).map (·.skipPast window.range scan)).filter (!·.isEmpty) := by
  rcases known with _ | ⟨block, windows⟩
  · rfl
  have cut := Block.skipPast_pastAll (ordered block windows rfl) windows window
  rw [close, Option.map_some, remains, remains, ← cut]
  by_cases empty : (block.pastAll scan windows).isEmpty = true
  · have nothing : ((block.pastAll scan windows).skipPast window.range scan).isEmpty = true := by
      rw [Block.isEmpty_iff, Block.rows_skipPast, (Block.isEmpty_iff _).1 empty]
      rfl
    simp [Option.filter, empty, nothing]
  · simp [Option.filter, empty]

theorem isEmpty_of_remains {block : Block} (held : known.remains scan = some block) :
    block.isEmpty = false := by
  rcases known with _ | ⟨b, windows⟩
  · cases held
  · rw [remains, Option.filter_eq_some_iff] at held
    simpa using held.2

end Known

namespace Deed
variable {σ : Type}

/-- What a deed makes known of the inlet in a place. -/
def follow (scan : Scan) (place : Nat) (known : Known) : Deed σ → Known
  | pulled other _ answer =>
    if other = place then
      match Answer.taken? scan answer with
      | some block => some (block, [])
      | none => known
    else known
  | computed window _ closes => if closes then known.close window else known

def known (scan : Scan) (start : Nat → Known) (deeds : List (Deed σ)) (place : Nat) : Known :=
  deeds.foldl (follow scan place) (start place)

/-- A child is pulled only for an inlet that holds nothing and has not ended. A window
is computed only when every inlet that has not ended holds rows: what is left of the
block taken in last. -/
def Fair (scan : Scan) (known : Nat → Known) : Deed σ → Prop
  | pulled _ inlet _ => inlet.held = none ∧ inlet.ended = false
  | computed _ inlets _ => ∀ place inlet, inlets[place]? = some inlet →
      inlet.held = (known place).remains scan ∧
        (inlet.ended = false → ∃ block, inlet.held = some block ∧ block.isEmpty = false)

def AllFair (scan : Scan) (start : Nat → Known) (deeds : List (Deed σ)) : Prop :=
  ∀ before deed after, deeds = before ++ deed :: after → deed.Fair scan (known scan start before)

variable {scan : Scan} {start : Nat → Known} {first rest : List (Deed σ)} {deed : Deed σ}

theorem known_append (scan : Scan) (start : Nat → Known) (first rest : List (Deed σ)) :
    known scan start (first ++ rest) = known scan (known scan start first) rest := by
  funext place
  exact List.foldl_append

theorem allFair_nil : AllFair scan start ([] : List (Deed σ)) := by
  intro before deed after same
  cases before <;> cases same

theorem AllFair.append (fair : AllFair scan start first)
    (later : AllFair scan (known scan start first) rest) : AllFair scan start (first ++ rest) := by
  intro before deed after same
  rcases List.append_eq_append_iff.1 same with ⟨between, rfl, rfl⟩ | ⟨between, rfl, tail⟩
  · rw [known_append]
    exact later between deed after rfl
  · cases between with
    | nil =>
      rw [List.nil_append] at tail
      rw [List.append_nil] at later
      exact later [] deed after tail.symm
    | cons other between =>
      cases tail
      exact fair before deed between rfl

theorem allFair_singleton (fair : deed.Fair scan start) : AllFair scan start [deed] := by
  intro before other after same
  cases before with
  | nil =>
    cases same
    exact fair
  | cons first before =>
    injection same with _ rest
    exact absurd rest.symm (by simp)

end Deed

namespace MergeStage
variable {σ : Type} {hasNext : σ → Except Failure Bool} {scan : Scan} {start : Nat → Known}
  {lanes after : List (Lane σ)} {deeds : List (Deed σ)}

/-- Each inlet holds what is left of the block that it took in last. -/
structure Tracks (scan : Scan) (known : Nat → Known) (inlets : List (Inlet σ)) : Prop where
  held : ∀ place inlet, inlets[place]? = some inlet → inlet.held = (known place).remains scan
  ordered : ∀ place block windows, known place = some (block, windows) → scan.Ordered block.rows

theorem Tracks.of_held {inlets others : List (Inlet σ)} (tracks : Tracks scan start inlets)
    (same : others.map (·.held) = inlets.map (·.held)) : Tracks scan start others := by
  refine ⟨fun i x found => ?_, tracks.ordered⟩
  have held : (others.map (·.held))[i]? = some x.held := by rw [List.getElem?_map, found]; rfl
  rw [same, List.getElem?_map] at held
  obtain ⟨inlet, at_, held⟩ := Option.map_eq_some_iff.1 held
  exact held.symm.trans (tracks.held i inlet at_)

theorem taken?_eq_some {answer : Except Failure Answer} {block : Block}
    (taken : Answer.taken? scan answer = some block) :
    block.isEmpty = false ∧ scan.Ordered block.rows := by
  rcases answer with e | b | _ | _
  · cases taken
  · rw [Answer.taken?] at taken
    split at taken
    · cases taken
    next some_ =>
    split at taken
    · cases taken
    next fine =>
    cases taken
    exact ⟨by simpa using some_, (block.checkScanOrder_eq_ok_iff scan).1 fine⟩
  · cases taken
  · cases taken

theorem Tracks.pull {place : Nat} {inlets : List (Inlet σ)}
    (tracks : Tracks scan start inlets) {inlet : Inlet σ} (at_ : inlets[place]? = some inlet)
    (empty : inlet.held = none) (pulled : Attempt σ Answer) :
    Tracks scan (Deed.known scan start [.pulled place inlet pulled.1])
      (inlets.set place (.given scan pulled)) := by
  have nothing : (start place).remains scan = none := (tracks.held place inlet at_).symm.trans empty
  have inside : place < inlets.length := (List.getElem?_eq_some_iff.1 at_).1
  have other : ∀ i, place ≠ i → Deed.known scan start [.pulled place inlet pulled.1] i = start i :=
    fun i apart => if_neg apart
  have own : Deed.known scan start [.pulled place inlet pulled.1] place =
      match Answer.taken? scan pulled.1 with
      | some block => some (block, [])
      | none => start place := if_pos rfl
  constructor
  · intro i x found
    by_cases here : place = i
    · subst here
      rw [List.getElem?_set_self inside] at found
      cases found
      rw [own]
      cases taken : Answer.taken? scan pulled.1 with
      | none =>
        rw [nothing]
        exact taken
      | some block =>
        rw [Known.remains_fresh (taken?_eq_some taken).1]
        exact taken
    · rw [List.getElem?_set_ne here] at found
      rw [other i here]
      exact tracks.held i x found
  · intro i block windows found
    by_cases here : place = i
    · subst here
      rw [own] at found
      cases taken : Answer.taken? scan pulled.1 with
      | none =>
        rw [taken] at found
        exact tracks.ordered place block windows found
      | some fresh =>
        rw [taken] at found
        cases found
        exact (taken?_eq_some taken).2
    · rw [other i here] at found
      exact tracks.ordered i block windows found

theorem Tracks.close {inlets : List (Inlet σ)} (tracks : Tracks scan start inlets)
    (window : Window) : Tracks scan (fun place => (start place).close window)
      (inlets.map (·.skipPast window.range scan)) := by
  constructor
  · intro i x found
    rw [List.getElem?_map] at found
    obtain ⟨inlet, at_, rfl⟩ := Option.map_eq_some_iff.1 found
    rw [Known.remains_close (tracks.ordered i), ← tracks.held i inlet at_]
    rfl
  · intro i block windows found
    obtain ⟨⟨b, before⟩, known, same⟩ := Option.map_eq_some_iff.1 found
    cases same
    exact tracks.ordered i block before known

/-- An act is fair, and what an inlet holds afterwards is known. -/
theorem Tracks.act (tracks : Tracks scan start (lanes.map (·.inlet)))
    (act : Act hasNext scan lanes deeds after) :
    Deed.AllFair scan start deeds ∧
      Tracks scan (Deed.known scan start deeds) (after.map (·.inlet)) := by
  cases act with
  | @noted place lane at_ empty going last =>
    refine ⟨Deed.allFair_nil, tracks.of_held ?_⟩
    rw [List.map_map, List.map_map, List.map_set]
    apply List.ext_getElem?
    intro i
    by_cases here : place = i
    · subst here
      have inside : place < lanes.length := (List.getElem?_eq_some_iff.1 at_).1
      rw [List.getElem?_set_self (by simpa using inside), List.getElem?_map, at_]
      rfl
    · rw [List.getElem?_set_ne here]
  | @pulled place lane at_ empty going more may =>
    refine ⟨Deed.allFair_singleton ⟨empty, going⟩, ?_⟩
    rw [List.map_set]
    exact tracks.pull (by rw [List.getElem?_map, at_]; rfl) empty _
  | computed window closes ready =>
    refine ⟨Deed.allFair_singleton fun place inlet found => ?_, ?_⟩
    · have held := tracks.held place inlet found
      refine ⟨held, fun going => ?_⟩
      rw [List.getElem?_map] at found
      obtain ⟨lane, listed, rfl⟩ := Option.map_eq_some_iff.1 found
      have some_ := (ready lane (List.mem_of_getElem? listed)).resolve_right (by simp [going])
      obtain ⟨block, same⟩ := Option.isSome_iff_exists.1 some_
      exact ⟨block, same, Known.isEmpty_of_remains (held.symm.trans same)⟩
    · cases closes with
      | false => exact tracks
      | true =>
        rw [if_pos rfl, List.map_map]
        have closed := tracks.close window
        rw [List.map_map] at closed
        exact closed

theorem Tracks.course (tracks : Tracks scan start (lanes.map (·.inlet)))
    (course : Course hasNext scan lanes deeds after) :
    Deed.AllFair scan start deeds ∧
      Tracks scan (Deed.known scan start deeds) (after.map (·.inlet)) := by
  induction course generalizing start with
  | idle => exact ⟨Deed.allFair_nil, tracks⟩
  | act head _ ih =>
    obtain ⟨fair, between⟩ := tracks.act head
    obtain ⟨later, last⟩ := ih between
    rw [Deed.known_append]
    exact ⟨fair.append later, last⟩

end MergeStage

namespace Tree
variable {σ : Type} [Operator σ] {m : MergeStage} {inlets : List (Inlet (Tree σ))}
  {start : Nat → Known}

def deeds : Tree σ → Happening σ → List (Deed (Tree σ))
  | merge m inlets, .asked .next => m.deeds hasNext (live inlets)
  | _, _ => []

/-- An open merge stays open, and what holds of it and of what it has done still holds. -/
def Stays (P : MergeStage → List (Inlet (Tree σ)) → List (Deed (Tree σ)) → Prop)
    (event : Happening σ) : Prop :=
  ∀ m inlets made, m.closed = false → P m inlets made →
    ∃ n after, (merge m inlets).happen event = merge n after ∧ n.closed = false ∧
      P n after (made ++ (merge m inlets).deeds event)

section
variable {inlets : List (Inlet (Tree (Recorded σ)))} {pulled : Nat → List σ} {size : Nat}
open Recorded

end

end Tree

namespace Query
variable {q : Query}

end Query
end WindowFold
