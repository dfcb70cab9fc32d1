import WindowFold.Proofs.Recutting
import WindowFold.Proofs.Rounding

/-! The extreme of whole numbers. They are compared by the floats nearest to them and
by their signs, the first of equals being kept; so the extreme has the largest absolute
value as far as a float can tell. -/
namespace WindowFold

/-- Whole numbers given to an accumulator: rows at once, or another's partial result. -/
inductive Offer where
  | rows (rows : List (Timestamp × Option Int))
  | share (cell : Option Int)

namespace Offer

def numbers : Offer → List Int
  | .rows given => given.filterMap (·.2)
  | .share cell => cell.toList

def allNumbers (offers : List Offer) : List Int := offers.flatMap numbers

def listed (numbers : List Int) : Offer := .rows (numbers.map fun n => (0, some n))

theorem allNumbers_listed (numbers : List Int) : allNumbers [listed numbers] = numbers := by
  simp [allNumbers, listed, Offer.numbers, List.filterMap_map]

end Offer

def floatSize (n : Int) : Nat := (Binary.ofInt n : Binary64).magnitude

/-- Numbers by their size; of two of one size a positive one stands higher. -/
def standing (size : Int → Nat) (n : Int) : Nat ×ₗ Bool := toLex (size n, decide (0 ≤ n))

theorem standing_lt {size : Int → Nat} {m n : Int} : standing size m < standing size n ↔
    size m < size n ∨ size m = size n ∧ m < 0 ∧ 0 ≤ n := by
  simp [standing, Prod.Lex.toLex_lt_toLex, Bool.lt_iff]

theorem floatSize_mono {m n : Int} (below : m.natAbs ≤ n.natAbs) : floatSize m ≤ floatSize n :=
  Binary.magnitude_ofInt_mono (by decide) below

theorem floatSize_lt {m n : Int} (small : n.natAbs ≤ 2 ^ 53) (below : m.natAbs < n.natAbs) :
    floatSize m < floatSize n :=
  Binary.magnitude_ofInt_lt (by decide) (by decide) small below

theorem floatSize_pos {n : Int} (nonzero : n ≠ 0) : 0 < floatSize n := by
  calc 0
    _ ≤ floatSize 0 := Nat.zero_le _
    _ < floatSize 1 := floatSize_lt (by decide) (by decide)
    _ ≤ floatSize n := floatSize_mono (by omega)

namespace Accumulator
variable {type : IntType}

def take (acc : Accumulator) (type : IntType) : Offer → Except Failure Accumulator
  | .rows given => acc.addRows (given.map (·.1)) ⟨.integer type, given.map (·.2)⟩
  | .share cell =>
    match acc.addPartial [⟨.integer type, cell⟩] with
    | (.error e, _) => .error e
    | (.ok (), acc) => .ok acc

def takeAll (acc : Accumulator) (type : IntType) : List Offer → Except Failure Accumulator
  | [] => .ok acc
  | offer :: rest =>
    match acc.take type offer with
    | .error e => .error e
    | .ok acc => acc.takeAll type rest

/-- The result of a fresh accumulator that is given all offers one after the other. -/
def extremeOf (type : IntType) (scan : Scan) (offers : List Offer) : Except Failure Scalar :=
  match create .extreme (.integer type) scan with
  | .error e => .error e
  | .ok fresh =>
    match fresh.takeAll type offers with
    | .error e => .error e
    | .ok acc => .ok acc.result

def weighed (type : IntType) (n : Int) : Binary64 × Scalar :=
  (Binary.ofInt n, ⟨.integer type, some n⟩)

theorem outweighs_weighed (m n : Int) : outweighs (weighed type m) (weighed type n) =
    decide (standing floatSize n < standing floatSize m) := by
  rw [Bool.eq_iff_iff, decide_eq_true_iff, standing_lt]
  have signs : ∀ k : Int, (Binary.ofInt k : Binary64).negative = decide (k < 0) := fun _ => rfl
  have sizes : ∀ k : Int, (Binary.ofInt k : Binary64).magnitude = floatSize k := fun _ => rfl
  have numbers : ∀ k : Int, (⟨false, floatSize k⟩ : Binary64).isNaN = false :=
    fun k => Binary.isNaN_ofInt (n := k)
  simp only [outweighs, weighed, Binary.exceeds, Binary.equals, Binary.isNaN_ofInt, Binary.abs,
    signs, sizes, numbers, decide_eq_true_eq, Bool.or_eq_true, Bool.and_eq_true, Bool.not_eq_true',
    Bool.not_false, Bool.true_and, Bool.false_eq_true, if_false, decide_eq_false_iff_not]
  -- of one size, only the sign can tell them apart, and zero has none
  have positive := floatSize_pos (n := n)
  split_ifs <;> omega

/-- Offered one by one, what is kept is the first of those that stand highest. -/
theorem foldl_offerExtreme (numbers : List Int) :
    (numbers.map (weighed type)).foldl (choose outweighs) none =
      (numbers.argmax (standing floatSize)).map (weighed type) := by
  have run : ∀ best : Option Int,
      (numbers.map (weighed type)).foldl (choose outweighs) (best.map (weighed type)) =
        (numbers.foldl (List.argAux fun m n => standing floatSize n < standing floatSize m)
          best).map (weighed type) := by
    induction numbers with
    | nil => intro best; rfl
    | cons n rest ih =>
      intro best
      rw [List.map_cons, List.foldl_cons, List.foldl_cons, ← ih]
      congr 1
      cases best with
      | none => rfl
      | some current =>
        simp only [Option.map_some, choose, outweighs_weighed, decide_eq_true_eq, List.argAux]
        split <;> rfl
  exact run none

theorem absorbAll_numbers (best : Option (Binary64 × Scalar))
    (given : List (Timestamp × Option (ScalarType.integer type).Value)) :
    (extreme (.integer type) best).absorbAll (scalarRows given) =
      extreme (.integer type) (((Offer.rows given).numbers.map (weighed type)).foldl
        (choose outweighs) best) := by
  rw [absorbAll_extreme]
  congr 1
  induction given generalizing best with
  | nil => rfl
  | cons row rest ih =>
    obtain ⟨time, cell⟩ := row
    cases cell with
    | none => exact ih best
    | some n =>
      have first := offerExtreme_eq best (Binary.ofInt n) ⟨.integer type, some n⟩
      exact (ih _).trans (congrArg (List.foldl (choose outweighs) · _) first)

theorem take_extreme (best : Option (Binary64 × Scalar)) (offer : Offer) :
    (extreme (.integer type) best).take type offer =
      .ok (extreme (.integer type) ((offer.numbers.map (weighed type)).foldl
        (choose outweighs) best)) := by
  cases offer with
  | rows given =>
    have paired := @zip_scalars (.integer type) given
    rw [take, addRows_extreme _ _ (by simp [Column.scalars]) rfl, paired, absorbAll_numbers]
  | share cell =>
    cases cell with
    | none => rfl
    | some n =>
      have shared := offerExtreme_eq best (Binary.ofInt n) ⟨.integer type, some n⟩
      exact congrArg (fun kept => Except.ok (extreme (.integer type) kept)) shared

theorem takeAll_extreme (best : Option (Binary64 × Scalar)) (offers : List Offer) :
    (extreme (.integer type) best).takeAll type offers =
      .ok (extreme (.integer type) (((Offer.allNumbers offers).map (weighed type)).foldl
        (choose outweighs) best)) := by
  induction offers generalizing best with
  | nil => rfl
  | cons offer rest ih =>
    rw [takeAll, take_extreme, Offer.allNumbers, List.flatMap_cons, List.map_append,
      List.foldl_append]
    exact ih _

/-- The first of the numbers that stand highest by their floats, in whatever portions
they are given. -/
theorem extremeOf_eq (scan : Scan) (offers : List Offer) : extremeOf type scan offers =
    .ok ⟨.integer type, (Offer.allNumbers offers).argmax (standing floatSize)⟩ := by
  have created : create .extreme (.integer type) scan = .ok (extreme (.integer type) none) := rfl
  rw [extremeOf, created]
  simp only [takeAll_extreme, foldl_offerExtreme]
  cases (Offer.allNumbers offers).argmax (standing floatSize) <;> rfl

section
variable {scan : Scan} {numbers : List Int} {greatest : Int}

/-- The floats put it above each of the other numbers. -/
def Foremost (numbers : List Int) (greatest : Int) : Prop :=
  ∀ n ∈ numbers, n ≠ greatest → standing floatSize n < standing floatSize greatest

theorem Foremost.argmax (foremost : Foremost numbers greatest) (member : greatest ∈ numbers) :
    numbers.argmax (standing floatSize) = some greatest := by
  rw [List.argmax_eq_some_iff]
  refine ⟨member, fun n among => ?_, fun n among level => ?_⟩
  · rcases eq_or_ne n greatest with rfl | other
    · exact le_rfl
    · exact (foremost n among other).le
  · rcases eq_or_ne n greatest with rfl | other
    · exact le_rfl
    · exact absurd level (foremost n among other).not_ge

/-- Whatever is kept if it comes last is foremost. -/
theorem foremost_of_argmax
    (kept : ∀ n ∈ numbers, greatest ∈ (n :: numbers.erase n).argmax (standing floatSize)) :
    Foremost numbers greatest := by
  intro n among other
  by_contra level
  have place := List.index_of_argmax (kept n among) List.mem_cons_self (not_lt.1 level)
  rw [List.idxOf_cons_self, List.idxOf_cons_ne _ other] at place
  contradiction

theorem natAbs_of_argmax (largest : greatest ∈ numbers.argmax (standing Int.natAbs)) {n : Int}
    (among : n ∈ numbers) : n.natAbs < greatest.natAbs ∨
      n.natAbs = greatest.natAbs ∧ (n ≠ greatest → n < 0 ∧ 0 ≤ greatest) := by
  have highest := not_lt.2 (List.le_of_mem_argmax among largest)
  rw [standing_lt] at highest
  omega

/-- Floats tell all whole numbers up to 2^53. -/
theorem foremost_of_small (largest : greatest ∈ numbers.argmax (standing Int.natAbs))
    (small : greatest.natAbs ≤ 2 ^ 53) : Foremost numbers greatest := by
  intro n among other
  rw [standing_lt]
  rcases natAbs_of_argmax largest among with less | ⟨same, signs⟩
  · exact .inl (floatSize_lt small less)
  · exact .inr ⟨Nat.le_antisymm (floatSize_mono same.le) (floatSize_mono same.ge), signs other⟩

theorem exists_argmax_floatSize (largest : greatest ∈ numbers.argmax (standing Int.natAbs))
    {offered : List Int} (perm : offered.Perm numbers) :
    ∃ n ∈ offered.argmax (standing floatSize), floatSize n = floatSize greatest := by
  have member := perm.mem_iff.2 (List.argmax_mem largest)
  cases kept : offered.argmax (standing floatSize) with
  | none =>
    rw [List.argmax_eq_none.1 kept] at member
    contradiction
  | some n =>
    refine ⟨n, rfl, Nat.le_antisymm ?_ ?_⟩
    · rcases natAbs_of_argmax largest (perm.mem_iff.1 (List.argmax_mem kept)) with less | ⟨same, -⟩
      · exact floatSize_mono less.le
      · exact floatSize_mono same.le
    · have highest := not_lt.2 (List.le_of_mem_argmax member kept)
      rw [standing_lt] at highest
      omega

end

/-- The number of the largest absolute value, the positive one of two, is the result of
every run over the same numbers exactly if the floats put it above the others. They do if
it is at most 2^53; in any case the result has its float but for the sign. -/
theorem extremeOf_greatest_iff (type : IntType) (scan : Scan) {numbers : List Int} {greatest : Int}
    (largest : greatest ∈ numbers.argmax (standing Int.natAbs)) :
    ((∀ offers, (Offer.allNumbers offers).Perm numbers →
        extremeOf type scan offers = .ok ⟨.integer type, some greatest⟩) ↔
      Foremost numbers greatest) ∧
    (greatest.natAbs ≤ 2 ^ 53 → Foremost numbers greatest) ∧
    ∀ offers, (Offer.allNumbers offers).Perm numbers → ∃ n ∈ numbers,
      extremeOf type scan offers = .ok ⟨.integer type, some n⟩ ∧
        floatSize n = floatSize greatest := by
  have member := List.argmax_mem largest
  refine ⟨⟨fun always => foremost_of_argmax fun n among => ?_, fun foremost offers perm => ?_⟩,
    foremost_of_small largest, fun offers perm => ?_⟩
  · have last := always [Offer.listed (n :: numbers.erase n)] (by
      rw [Offer.allNumbers_listed]
      exact (List.perm_cons_erase among).symm)
    rw [extremeOf_eq, Offer.allNumbers_listed] at last
    simp only [Except.ok.injEq, Scalar.mk.injEq, heq_eq_eq, true_and] at last
    exact last
  · have all : Foremost (Offer.allNumbers offers) greatest :=
      fun n among => foremost n (perm.mem_iff.1 among)
    rw [extremeOf_eq, all.argmax (perm.mem_iff.2 member)]
  · obtain ⟨n, kept, same⟩ := exists_argmax_floatSize largest perm
    refine ⟨n, perm.mem_iff.1 (List.argmax_mem kept), ?_, same⟩
    rw [extremeOf_eq, Option.mem_def.1 kept]

/-- Not so beyond: 2^53 and the next number have one float. -/
theorem extremeOf_greatest_iff_adjacent :
    9007199254740993 ∈ ([9007199254740992, 9007199254740993] : List Int).argmax
      (standing Int.natAbs) ∧
    ¬ ∀ offers, (Offer.allNumbers offers).Perm [9007199254740992, 9007199254740993] →
      extremeOf .int64 .ascending offers = .ok (.int64 9007199254740993) := by
  have largest : 9007199254740993 ∈ ([9007199254740992, 9007199254740993] : List Int).argmax
      (standing Int.natAbs) := by decide
  have level : ¬ Foremost [9007199254740992, 9007199254740993] 9007199254740993 :=
    fun foremost => absurd (foremost 9007199254740992 (by simp) (by decide)) (by decide +kernel)
  exact ⟨largest, (extremeOf_greatest_iff .int64 .ascending largest).1.not.2 level⟩

theorem extremeOf_adjacent :
    extremeOf .int64 .ascending [.rows [(1, some 9007199254740992), (2, some 9007199254740993)]] =
      .ok (.int64 9007199254740992) ∧
    extremeOf .int64 .ascending [.rows [(1, some 9007199254740993), (2, some 9007199254740992)]] =
      .ok (.int64 9007199254740993) ∧
    ([9007199254740992, 9007199254740993] : List Int).argmax (standing Int.natAbs) =
      some 9007199254740993 := by decide +kernel

end Accumulator
end WindowFold
