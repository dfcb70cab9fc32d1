import Mathlib

/-! Keeping the best of what is offered, one after the other: a candidate takes
the place of the one kept if it is strictly better. What is kept in the end is
the best of all, whatever the order of the offers. -/
namespace WindowFold

section
variable {α : Type}

/-- One candidate may be better than another; none is better than itself. -/
structure Ranking (better : α → α → Bool) : Prop where
  irreflexive : ∀ x, better x x = false
  transitive : ∀ x y z, better x y = true → better y z = true → better x z = true

def choose (better : α → α → Bool) (best : Option α) (candidate : α) : Option α :=
  match best with
  | none => some candidate
  | some current => if better candidate current then some candidate else best

variable {better : α → α → Bool}

theorem mem_choose {best : Option α} {candidate x : α}
    (member : x ∈ choose better best candidate) : x ∈ best ∨ x = candidate := by
  cases best with
  | none => exact .inr (Option.some.inj member).symm
  | some current =>
    rw [choose] at member
    split at member
    · exact .inr (Option.some.inj member).symm
    · exact .inl member

/-- An offer that is about to be outdone makes no difference. -/
theorem choose_choose (ranking : Ranking better) (best : Option α) {x y : α}
    (rising : better y x = true ∨ y = x) :
    choose better (choose better best x) y = choose better best y := by
  cases best with
  | none =>
    rcases rising with above | rfl
    · simp [choose, above]
    · simp [choose]
  | some current =>
    by_cases replaced : better x current = true
    · have outdone : better y current = true := by
        rcases rising with above | rfl
        · exact ranking.transitive y x current above replaced
        · exact replaced
      rcases rising with above | rfl
      · simp [choose, replaced, outdone, above]
      · simp [choose, replaced]
    · simp [choose, replaced]

/-- Two offers count alike in either order, unless they are on a par. -/
theorem choose_comm (ranking : Ranking better) {x y : α}
    (decided : better x y = false → better y x = false → x = y) (best : Option α) :
    choose better (choose better best x) y = choose better (choose better best y) x := by
  have neither : better x y = true → better y x = false := by
    intro above
    by_contra below
    have := ranking.transitive x y x above (by simpa using below)
    rw [ranking.irreflexive] at this
    contradiction
  cases xy : better x y with
  | true =>
    have yx := neither xy
    cases best with
    | none => simp [choose, xy, yx]
    | some current =>
      by_cases replaced : better y current = true
      · have outdone := ranking.transitive x y current xy replaced
        simp [choose, replaced, outdone, xy, yx]
      · by_cases outdone : better x current = true <;> simp [choose, replaced, outdone, yx]
  | false =>
    cases yx : better y x with
    | false => rw [decided xy yx]
    | true =>
      cases best with
      | none => simp [choose, xy, yx]
      | some current =>
        by_cases replaced : better x current = true
        · have outdone := ranking.transitive y x current yx replaced
          simp [choose, replaced, outdone, xy, yx]
        · by_cases outdone : better y current = true <;> simp [choose, replaced, outdone, xy]

theorem elim_choose_comm (ranking : Ranking better) {x y : Option α}
    (decided : ∀ a ∈ x, ∀ b ∈ y, better a b = false → better b a = false → a = b)
    (best : Option α) :
    y.elim (x.elim best (choose better best)) (choose better (x.elim best (choose better best))) =
      x.elim (y.elim best (choose better best))
        (choose better (y.elim best (choose better best))) := by
  cases x with
  | none => rfl
  | some a =>
    cases y with
    | none => rfl
    | some b => exact choose_comm ranking (decided a rfl b rfl) best

theorem foldl_choose_rising (ranking : Ranking better) {offers : List α}
    (rising : offers.Pairwise fun x y => better y x = true ∨ y = x) (best : Option α) :
    offers.foldl (choose better) best = offers.getLast?.elim best (choose better best) := by
  induction rising generalizing best with
  | nil => rfl
  | @cons x rest above _ ih =>
    rw [List.foldl_cons, ih, List.getLast?_cons]
    cases last : rest.getLast? with
    | none => rfl
    | some y =>
      have member : y ∈ rest := List.mem_of_getLast? last
      simpa using choose_choose ranking best (above y member)

/-- None of the offers is better than the one kept; none is kept if there are none. -/
def Best (better : α → α → Bool) (offers : List α) : Option α → Prop
  | none => offers = []
  | some best => best ∈ offers ∧ ∀ x ∈ offers, better x best = false

/-- No two offers are on a par. -/
def Decisive (better : α → α → Bool) (offers : List α) : Prop :=
  ∀ x ∈ offers, ∀ y ∈ offers, better x y = false → better y x = false → x = y

theorem best_choose (ranking : Ranking better) {offers : List α} {best : Option α}
    (kept : Best better offers best) (x : α) :
    Best better (offers ++ [x]) (choose better best x) := by
  cases best with
  | none =>
    rw [show offers = [] from kept]
    refine ⟨List.mem_singleton_self x, fun y member => ?_⟩
    rw [List.mem_singleton.1 member]
    exact ranking.irreflexive x
  | some current =>
    obtain ⟨among, unbeaten⟩ := kept
    rw [choose]
    split
    next replaced =>
      refine ⟨by simp, fun y member => ?_⟩
      rcases List.mem_append.1 member with earlier | last
      · by_contra beaten
        have := ranking.transitive y x current (by simpa using beaten) replaced
        rw [unbeaten y earlier] at this
        contradiction
      · rw [List.mem_singleton.1 last]
        exact ranking.irreflexive x
    next kept =>
      refine ⟨List.mem_append_left _ among, fun y member => ?_⟩
      rcases List.mem_append.1 member with earlier | last
      · exact unbeaten y earlier
      · rw [List.mem_singleton.1 last]
        simpa using kept

theorem best_foldl (ranking : Ranking better) (offers : List α) :
    Best better offers (offers.foldl (choose better) none) := by
  have run : ∀ seen best, Best better seen best →
      Best better (seen ++ offers) (offers.foldl (choose better) best) := by
    induction offers with
    | nil =>
      intro seen best kept
      rwa [List.append_nil]
    | cons x rest ih =>
      intro seen best kept
      rw [List.foldl_cons, List.append_cons]
      exact ih _ _ (best_choose ranking kept x)
  exact run [] none rfl

theorem best_head? (ranking : Ranking better) {offers : List α}
    (falling : offers.Pairwise fun x y => better y x = false) :
    Best better offers offers.head? := by
  cases offers with
  | nil => rfl
  | cons x rest =>
    refine ⟨List.mem_cons_self, fun y member => ?_⟩
    rcases List.mem_cons.1 member with rfl | later
    · exact ranking.irreflexive y
    · exact List.rel_of_pairwise_cons falling later

theorem best_append (ranking : Ranking better) {xs ys : List α} {best other : Option α}
    (decisive : Decisive better (xs ++ ys)) (left : Best better xs best)
    (right : Best better ys other) :
    Best better (xs ++ ys) (other.elim best (choose better best)) := by
  cases other with
  | none =>
    rw [show ys = [] from right, List.append_nil]
    exact left
  | some y =>
    obtain ⟨among, unbeaten⟩ := right
    have chosen := best_choose ranking left y
    rw [Option.elim_some]
    cases winner : choose better best y with
    | none =>
      rw [winner] at chosen
      exact absurd (show xs ++ [y] = [] from chosen) (by simp)
    | some z =>
      rw [winner] at chosen
      obtain ⟨member, ahead⟩ := chosen
      have inside : ∀ x ∈ xs ++ [y], x ∈ xs ++ ys := fun x either => by
        rcases List.mem_append.1 either with first | last
        · exact List.mem_append_left _ first
        · exact List.mem_append_right _ (List.mem_singleton.1 last ▸ among)
      refine ⟨inside z member, fun w either => ?_⟩
      rcases List.mem_append.1 either with first | second
      · exact ahead w (List.mem_append_left _ first)
      · have behind := ahead y (by simp)
        by_cases above : better z y = true
        · by_contra beaten
          have := ranking.transitive w z y (by simpa using beaten) above
          rw [unbeaten w second] at this
          contradiction
        · rw [decisive z (inside z member) y (List.mem_append_right _ among) (by simpa using above)
            behind]
          exact unbeaten w second

theorem Best.unique {xs ys : List α} {best other : Option α} (decisive : Decisive better xs)
    (same : ∀ x, x ∈ xs ↔ x ∈ ys) (left : Best better xs best) (right : Best better ys other) :
    best = other := by
  cases best with
  | none =>
    cases other with
    | none => rfl
    | some y =>
      have member := (same y).2 right.1
      rw [show xs = [] from left] at member
      contradiction
  | some x =>
    cases other with
    | none =>
      have member := (same x).1 left.1
      rw [show ys = [] from right] at member
      contradiction
    | some y =>
      have among := (same y).2 right.1
      exact congrArg some (decisive x left.1 y among (right.2 x ((same x).1 left.1))
        (left.2 y among))

end
end WindowFold
