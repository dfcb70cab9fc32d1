import WindowFold.Proofs.Merging

/-! Rows in scan order, cut into pieces that an accumulator is given one by one.
Of rows at one time the last counts within a piece, but the first from piece to
piece. So where several rows share the time that is wanted, a first or last value
depends on the cuts. -/
namespace WindowFold.Accumulator
variable {type : ScalarType}

def scalarRows (rows : List (Timestamp × Option type.Value)) : List (Timestamp × Scalar) :=
  rows.map fun row => (row.1, ⟨type, row.2⟩)

def valued (rows : List (Timestamp × Option type.Value)) : List (Timestamp × Scalar) :=
  filled (scalarRows rows)

def lastValue? (rows : List (Timestamp × Option type.Value)) : Option (Timestamp × Scalar) :=
  (valued rows).getLast?

def addPieces (acc : Accumulator) :
    List (List (Timestamp × Option type.Value)) → Except Failure Accumulator
  | [] => .ok acc
  | piece :: rest =>
    match acc.addRows (piece.map (·.1)) ⟨type, piece.map (·.2)⟩ with
    | .error e => .error e
    | .ok acc => acc.addPieces rest

def outputs (acc : Accumulator) : Scalar × List Scalar := (acc.result, acc.partialResult)

def keepOf (position : Position) (scan : Scan) (found : Option (Timestamp × Scalar))
    (piece : List (Timestamp × Option type.Value)) : Option (Timestamp × Scalar) :=
  if position.leads scan then found.or (valued piece).head?
  else (lastValue? piece).elim found (choose (fun x y => position.prefers x.1 y.1) found)

variable {position : Position} {scan : Scan} {found : Option (Timestamp × Scalar)}
  {rows : List (Timestamp × Option type.Value)}
  {pieces : List (List (Timestamp × Option type.Value))}

theorem scalarRows_append (more : List (Timestamp × Option type.Value)) :
    scalarRows (rows ++ more) = scalarRows rows ++ scalarRows more := List.map_append

theorem valued_append (more : List (Timestamp × Option type.Value)) :
    valued (rows ++ more) = valued rows ++ valued more := by
  rw [valued, scalarRows_append, filled_append]
  rfl

theorem zip_scalars (rows : List (Timestamp × Option type.Value)) :
    (rows.map (·.1)).zip (Column.scalars ⟨type, rows.map (·.2)⟩) = scalarRows rows := by
  rw [Column.scalars, List.map_map, List.zip_map']
  rfl

theorem addRows_piece (piece : List (Timestamp × Option type.Value)) :
    (valueAt position scan type found).addRows (piece.map (·.1)) ⟨type, piece.map (·.2)⟩ =
      .ok (valueAt position scan type (keepOf position scan found piece)) := by
  have same : (piece.map (·.1)).length = (Column.scalars ⟨type, piece.map (·.2)⟩).length := by
    simp [Column.scalars]
  have picked := pickTimed_eq position scan same
  rw [zip_scalars] at picked
  rw [addRows]
  cases leads : position.leads scan with
  | true =>
    rw [leads, if_pos rfl] at picked
    cases found with
    | some row => simp [isSettled, leads, keepOf]
    | none =>
      simp only [isSettled, Option.isSome_none, Bool.false_and, Bool.false_eq_true,
        if_false, picked]
      cases first : (filled (scalarRows piece)).head? with
      | none => simp [keepOf, leads, valued, first]
      | some row => simp [keepOf, leads, valued, first, offerValue]
  | false =>
    rw [leads, if_neg (by simp)] at picked
    simp only [isSettled, leads, Bool.and_false, Bool.false_eq_true, if_false, picked]
    cases last : (filled (scalarRows piece)).getLast? with
    | none => simp [keepOf, leads, lastValue?, valued, last]
    | some row => simp [keepOf, leads, lastValue?, valued, last, offerValue_eq]

theorem addPieces_eq :
    (valueAt position scan type found).addPieces pieces =
      .ok (valueAt position scan type (pieces.foldl (keepOf position scan) found)) := by
  induction pieces generalizing found with
  | nil => rfl
  | cons piece rest ih =>
    rw [addPieces, addRows_piece]
    exact ih

/-- In the direction in which the first value is final, it is the first of all rows. -/
theorem foldl_keepOf_leading (leads : position.leads scan = true) :
    pieces.foldl (keepOf position scan) found = found.or (valued pieces.flatten).head? := by
  induction pieces generalizing found with
  | nil => simp [valued, scalarRows, filled]
  | cons piece rest ih =>
    rw [List.foldl_cons, ih, keepOf, if_pos leads, List.flatten_cons, valued_append,
      List.head?_append, Option.or_assoc]

/-- In the other one it is chosen among the last values of the pieces. -/
theorem foldl_keepOf (leads : position.leads scan = false) :
    pieces.foldl (keepOf position scan) found =
      (pieces.filterMap lastValue?).foldl (choose fun x y => position.prefers x.1 y.1) found := by
  rw [List.foldl_filterMap]
  congr 1
  funext found piece
  rw [keepOf, leads, if_neg (by simp)]
  cases lastValue? piece <;> rfl

theorem lastValue?_pieces (pieces : List (List (Timestamp × Option type.Value))) :
    List.Sublist (pieces.filterMap lastValue?) (valued pieces.flatten) ∧
      (pieces.filterMap lastValue?).getLast? = lastValue? pieces.flatten := by
  induction pieces with
  | nil => exact ⟨.slnil, rfl⟩
  | cons piece rest ih =>
    obtain ⟨part, final⟩ := ih
    rw [lastValue?] at final
    rw [lastValue?, List.flatten_cons, valued_append, List.getLast?_append, ← final]
    cases last : lastValue? piece with
    | none =>
      have nothing : valued piece = [] := List.getLast?_eq_none_iff.1 last
      rw [List.filterMap_cons_none last, nothing, List.nil_append, List.getLast?_nil,
        Option.or_none]
      exact ⟨part, rfl⟩
    | some row =>
      rw [List.filterMap_cons_some last, List.getLast?_cons,
        show (valued piece).getLast? = _ from last]
      refine ⟨(List.singleton_sublist.2 (List.mem_of_getLast? last)).append part, ?_⟩
      cases (rest.filterMap lastValue?).getLast? <;> rfl

theorem ordered_valued (ordered : rows.Pairwise fun x y => scan.inOrder x.1 y.1 = true) :
    (valued rows).Pairwise fun x y => scan.inOrder x.1 y.1 = true :=
  List.Pairwise.filter _ (List.pairwise_map.2 ordered)

/-- The value kept is one of those at the last time that has any. -/
theorem foldl_keepOf_time (leads : position.leads scan = false)
    (ordered : pieces.flatten.Pairwise fun x y => scan.inOrder x.1 y.1 = true) :
    (∀ row ∈ pieces.foldl (keepOf position scan) none, row ∈ valued pieces.flatten) ∧
      (pieces.foldl (keepOf position scan) none).map (·.1) =
        (lastValue? pieces.flatten).map (·.1) := by
  obtain ⟨part, final⟩ := lastValue?_pieces pieces
  have best := best_foldl (ranking_valueAt position) (pieces.filterMap lastValue?)
  rw [foldl_keepOf leads]
  generalize pieces.filterMap lastValue? = lasts at part final best
  cases kept : lasts.foldl (choose fun x y => position.prefers x.1 y.1) none with
  | none =>
    rw [kept] at best
    obtain rfl : lasts = [] := best
    exact ⟨nofun, by rw [← final]; rfl⟩
  | some row =>
    rw [kept] at best
    obtain ⟨among, unbeaten⟩ := best
    constructor
    · rintro other ⟨⟩
      exact part.subset among
    obtain rfl | ⟨earlier, last, rfl⟩ := List.eq_nil_or_concat' lasts
    · contradiction
    rw [← final, List.getLast?_concat]
    have inOrder := (ordered_valued ordered).sublist part
    rcases List.mem_append.1 among with before | only
    · have order := (List.pairwise_append.1 inOrder).2.2 row before last (List.mem_singleton_self _)
      rcases Position.prefers_of_inOrder leads order with nearer | same
      · have behind : position.prefers last.1 row.1 = false := unbeaten last (by simp)
        rw [behind] at nearer
        contradiction
      · exact congrArg some same.symm
    · rw [List.mem_singleton.1 only]

/-- Of two pieces the first ends at the last time that has a value: that stays. -/
theorem foldl_keepOf_early (leads : position.leads scan = false)
    {before after : List (Timestamp × Option type.Value)} {row last : Timestamp × Scalar}
    (ends : lastValue? before = some row) (final : lastValue? (before ++ after) = some last)
    (same : row.1 = last.1) : [before, after].foldl (keepOf position scan) none = some row := by
  rw [foldl_keepOf leads, List.filterMap_cons_some ends]
  rw [lastValue?, valued_append, List.getLast?_append] at final
  cases later : lastValue? after with
  | none => rw [List.filterMap_cons_none later]; rfl
  | some other =>
    rw [show (valued after).getLast? = _ from later, Option.some_or] at final
    obtain rfl := Option.some.inj final
    rw [List.filterMap_cons_some later]
    simp [choose, ← same, position.ranking.irreflexive]

theorem exists_cut (leads : position.leads scan = false) {row last : Timestamp × Scalar}
    (final : lastValue? rows = some last) (member : row ∈ valued rows) (same : row.1 = last.1) :
    ∃ pieces : List (List (Timestamp × Option type.Value)), pieces.flatten = rows ∧
      pieces.foldl (keepOf position scan) none = some row := by
  obtain ⟨cell, listed, rfl⟩ := List.mem_map.1 (mem_filled member)
  obtain ⟨earlier, after, rfl⟩ := List.append_of_mem listed
  have ends : lastValue? (earlier ++ [cell]) = some (cell.1, ⟨type, cell.2⟩) := by
    have only : valued [cell] = [(cell.1, ⟨type, cell.2⟩)] := by
      apply List.filter_eq_self.2
      intro other single
      rw [List.mem_singleton.1 single, filled_full _ member]
      rfl
    rw [lastValue?, valued_append, only, List.getLast?_concat]
  rw [List.append_cons] at final
  exact ⟨[earlier ++ [cell], after], by simp, foldl_keepOf_early leads ends final same⟩

/-- If the values at the last time are all the same, they are what is kept. -/
theorem foldl_keepOf_agree (leads : position.leads scan = false)
    (ordered : pieces.flatten.Pairwise fun x y => scan.inOrder x.1 y.1 = true)
    (agree : ∀ last ∈ lastValue? pieces.flatten, ∀ row ∈ valued pieces.flatten,
      row.1 = last.1 → row.2 = last.2) :
    pieces.foldl (keepOf position scan) none = lastValue? pieces.flatten := by
  obtain ⟨among, time⟩ := foldl_keepOf_time leads ordered
  cases final : lastValue? pieces.flatten with
  | none => simpa [final] using time
  | some last =>
    cases found : pieces.foldl (keepOf position scan) none with
    | none => simp [final, found] at time
    | some row =>
      have same : row.1 = last.1 := by simpa [final, found] using time
      exact congrArg some (Prod.ext same (agree last final row (among row found) same))

/-- Rows in scan order are taken in however they are cut. The cuts make no
difference to a first or last value exactly if it is settled by the first row with
a value or if the values at the last time that has any are all the same. -/
theorem addPieces_recut_iff
    (ordered : rows.Pairwise fun x y => scan.inOrder x.1 y.1 = true) :
    (∀ pieces : List (List (Timestamp × Option type.Value)), pieces.flatten = rows →
      ∃ acc, (valueAt position scan type none).addPieces pieces = .ok acc) ∧
    ((∀ pieces others : List (List (Timestamp × Option type.Value)),
        pieces.flatten = rows → others.flatten = rows →
        ((valueAt position scan type none).addPieces pieces).map outputs =
          ((valueAt position scan type none).addPieces others).map outputs) ↔
      position.leads scan = true ∨
        ∀ last ∈ lastValue? rows, ∀ row ∈ valued rows, row.1 = last.1 → row.2 = last.2) := by
  constructor
  · intro pieces _
    exact ⟨_, addPieces_eq⟩
  simp only [addPieces_eq]
  cases leads : position.leads scan with
  | true =>
    apply iff_of_true
    · intro pieces others whole same
      rw [foldl_keepOf_leading leads, foldl_keepOf_leading leads, whole, same]
    · exact .inl rfl
  | false =>
    constructor
    · intro alike
      right
      intro last final row member same
      obtain ⟨pieces, whole, kept⟩ := exists_cut leads final member same
      have uncut : [rows].foldl (keepOf position scan) none = some last := by
        rw [foldl_keepOf leads, List.filterMap_cons_some final]
        rfl
      have results := alike pieces [rows] whole List.flatten_singleton
      rw [kept, uncut] at results
      exact congrArg Prod.fst (Except.ok.inj results)
    · intro agree pieces others whole same
      have agree := agree.resolve_left (by simp)
      have kept := foldl_keepOf_agree leads (whole ▸ ordered) (whole ▸ agree)
      have kept' := foldl_keepOf_agree leads (same ▸ ordered) (same ▸ agree)
      rw [kept, kept', whole, same]

theorem addPieces_recut_iff_level :
    ([(3, some 4), (5, some 1), (5, some 1), (7, none)] :
        List (Timestamp × Option ScalarType.int64.Value)).Pairwise
      (fun x y => Scan.ascending.inOrder x.1 y.1 = true) ∧
    ∀ pieces others : List (List (Timestamp × Option ScalarType.int64.Value)),
      pieces.flatten = [(3, some 4), (5, some 1), (5, some 1), (7, none)] →
      others.flatten = [(3, some 4), (5, some 1), (5, some 1), (7, none)] →
      ((valueAt .last .ascending .int64 none).addPieces pieces).map outputs =
        ((valueAt .last .ascending .int64 none).addPieces others).map outputs := by
  have ordered : ([(3, some 4), (5, some 1), (5, some 1), (7, none)] :
      List (Timestamp × Option ScalarType.int64.Value)).Pairwise
        (fun x y => Scan.ascending.inOrder x.1 y.1 = true) := by decide
  exact ⟨ordered, (addPieces_recut_iff ordered).2.2 (.inr (by decide))⟩

/-- Two rows at one time: at once the later value is the last one, and one by one
the earlier. -/
theorem addPieces_tie :
    create .lastValue .int64 .ascending = .ok (valueAt .last .ascending .int64 none) ∧
      ((valueAt .last .ascending .int64 none).addPieces
          [([(5, some 1), (5, some 2)] : List (Timestamp × Option ScalarType.int64.Value))]).map
        outputs = .ok (.int64 2, [.int64 2, .int64 5]) ∧
      ((valueAt .last .ascending .int64 none).addPieces
          [([(5, some 1)] : List (Timestamp × Option ScalarType.int64.Value)), [(5, some 2)]]).map
        outputs = .ok (.int64 1, [.int64 1, .int64 5]) := by
  decide

end WindowFold.Accumulator
