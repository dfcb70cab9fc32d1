import Mathlib
import WindowFold.Failure

/-! Lists: prefixes of ordered lists, members of related lists, and attempts
made for every member. -/
namespace WindowFold

section
variable {α : Type} {R : α → α → Prop} {p : α → Bool}

theorem takeWhile_eq_filter (closed : ∀ a b, R a b → p b = true → p a = true) {l : List α}
    (ordered : l.Pairwise R) : l.takeWhile p = l.filter p := by
  induction ordered with
  | nil => rfl
  | @cons a l before _ ih =>
    by_cases h : p a = true
    · rw [List.takeWhile_cons_of_pos h, List.filter_cons_of_pos h, ih]
    · have none : ∀ b ∈ l, ¬ p b = true := fun b member hb => h (closed a b (before b member) hb)
      rw [List.takeWhile_cons_of_neg h, List.filter_cons_of_neg h, List.filter_eq_nil_iff.2 none]

theorem dropWhile_eq_filter (closed : ∀ a b, R a b → p b = true → p a = true) {l : List α}
    (ordered : l.Pairwise R) : l.dropWhile p = l.filter (!p ·) := by
  induction ordered with
  | nil => rfl
  | @cons a l before _ ih =>
    by_cases h : p a = true
    · rw [List.dropWhile_cons_of_pos h, List.filter_cons_of_neg (by simp [h]), ih]
    · have all : ∀ b ∈ l, (!p b) = true := fun b member => by
        simpa using fun hb => h (closed a b (before b member) hb)
      rw [List.dropWhile_cons_of_neg h, List.filter_cons_of_pos (by simp [h]),
        List.filter_eq_self.2 all]

end

theorem drop_length_takeWhile {α : Type} (p : α → Bool) (l : List α) :
    l.drop (l.takeWhile p).length = l.dropWhile p := by
  conv_lhs => arg 2; rw [← List.takeWhile_append_dropWhile (p := p) (l := l)]
  rw [List.drop_left]

theorem take_length_takeWhile {α : Type} (p : α → Bool) (l : List α) :
    l.take (l.takeWhile p).length = l.takeWhile p := by
  conv_lhs => arg 2; rw [← List.takeWhile_append_dropWhile (p := p) (l := l)]
  rw [List.take_left]

section
variable {α β : Type} {R : α → β → Prop} {xs : List α} {ys : List β}

theorem exists_right (related : List.Forall₂ R xs ys) {x : α} (member : x ∈ xs) :
    ∃ y ∈ ys, R x y := by
  induction related with
  | nil => contradiction
  | @cons z y xs ys first _ ih =>
    rcases List.mem_cons.1 member with rfl | later
    · exact ⟨y, List.mem_cons_self, first⟩
    · obtain ⟨y', inside, related⟩ := ih later
      exact ⟨y', List.mem_cons_of_mem _ inside, related⟩

theorem exists_left (related : List.Forall₂ R xs ys) {y : β} (member : y ∈ ys) :
    ∃ x ∈ xs, R x y :=
  exists_right (List.Forall₂.flip related) member

theorem exists_forall₂ (each : ∀ x ∈ xs, ∃ y, R x y) : ∃ ys, List.Forall₂ R xs ys := by
  induction xs with
  | nil => exact ⟨[], .nil⟩
  | cons x xs ih =>
    obtain ⟨y, first⟩ := each x List.mem_cons_self
    obtain ⟨ys, others⟩ := ih fun z member => each z (List.mem_cons_of_mem _ member)
    exact ⟨y :: ys, .cons first others⟩

theorem map_eq_map_iff {γ : Type} {f : α → γ} {g : β → γ} :
    xs.map f = ys.map g ↔ List.Forall₂ (fun x y => f x = g y) xs ys := by
  rw [← List.forall₂_eq_eq_eq, List.forall₂_map_left_iff, List.forall₂_map_right_iff]

theorem zipWith_eq_map {γ : Type} {f : α → β → γ} {g : α → γ}
    (same : List.Forall₂ (fun x y => f x y = g x) xs ys) : List.zipWith f xs ys = xs.map g := by
  induction same with
  | nil => rfl
  | cons first _ ih => rw [List.zipWith_cons_cons, first, ih, List.map_cons]

end

/-- A fold does not depend on the order if, in the states that it goes through,
any two steps can change places. -/
theorem foldl_perm {α β : Type} {f : β → α → β} {inside : β → Prop} {xs ys : List α}
    (perm : xs.Perm ys) (keeps : ∀ state, inside state → ∀ x ∈ xs, inside (f state x))
    (swap : ∀ state, inside state → ∀ x ∈ xs, ∀ y ∈ xs, f (f state x) y = f (f state y) x)
    {state : β} (start : inside state) : xs.foldl f state = ys.foldl f state := by
  induction perm generalizing state with
  | nil => rfl
  | cons x perm ih =>
    exact ih (fun state start z member => keeps state start z (List.mem_cons_of_mem _ member))
      (fun state start y left z right =>
        swap state start y (List.mem_cons_of_mem _ left) z (List.mem_cons_of_mem _ right))
      (keeps state start x List.mem_cons_self)
  | swap x y rest =>
    rw [List.foldl_cons, List.foldl_cons, List.foldl_cons, List.foldl_cons,
      swap state start y (by simp) x (by simp)]
  | trans perm _ first second =>
    exact (first keeps swap start).trans
      (second (fun state start z member => keeps state start z (perm.mem_iff.2 member))
        (fun state start y left z right =>
          swap state start y (perm.mem_iff.2 left) z (perm.mem_iff.2 right)) start)

theorem map_eq_ok {α β : Type} {f : α → β} {x : Except Failure α} {b : β} :
    x.map f = .ok b ↔ ∃ a, x = .ok a ∧ f a = b := by
  cases x with
  | error e => exact ⟨nofun, nofun⟩
  | ok a =>
    constructor
    · intro same
      exact ⟨a, rfl, Except.ok.inj same⟩
    · rintro ⟨_, same, rfl⟩
      cases same
      rfl

theorem mapM_eq_ok {α β : Type} {f : α → Except Failure β} {xs : List α} {ys : List β} :
    xs.mapM f = .ok ys ↔ List.Forall₂ (fun x y => f x = .ok y) xs ys := by
  induction xs generalizing ys with
  | nil =>
    rw [List.mapM_nil, List.forall₂_nil_left_iff]
    exact ⟨fun same => (Except.ok.inj same).symm, fun same => same ▸ rfl⟩
  | cons x xs ih =>
    rw [List.mapM_cons, List.forall₂_cons_left_iff]
    constructor
    · intro mapped
      cases first : f x with
      | error e => rw [first] at mapped; contradiction
      | ok y =>
        cases others : xs.mapM f with
        | error e => rw [first, others] at mapped; contradiction
        | ok ys =>
          rw [first, others] at mapped
          exact ⟨y, ys, rfl, ih.1 others, (Except.ok.inj mapped).symm⟩
    · rintro ⟨y, ys, first, others, rfl⟩
      rw [first, ih.2 others]
      rfl

end WindowFold
