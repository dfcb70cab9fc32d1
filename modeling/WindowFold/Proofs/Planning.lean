import WindowFold.Proofs.Asking
import WindowFold.Proofs.MergeQueries

/-! Trees as they are planned: nothing in them is closed. -/
namespace WindowFold

theorem bind_eq_ok {α β : Type} {x : Except Failure α} {f : α → Except Failure β} {b : β}
    (made : (x >>= f) = .ok b) : ∃ a, x = .ok a ∧ f a = .ok b := by
  cases x with
  | error => contradiction
  | ok a => exact ⟨a, rfl, made⟩

theorem Replay.open_create {name : String} {schema : Schema} {blocks : List Block} {r : Replay}
    (made : create name schema blocks = .ok r) : r.closed = false := by
  rw [create] at made
  split at made
  · cases made
    rfl
  · contradiction

theorem Replay.open_ofBlocks {name : String} {blocks : List Block} {r : Replay}
    (made : ofBlocks name blocks = .ok r) : r.closed = false := by
  rw [ofBlocks.eq_def] at made
  split at made
  · contradiction
  · exact open_create made

theorem Source.open_replay {r : Replay} (running : r.closed = false) :
    (Tree.source (.replay r)).shape.Open := by
  rw [Tree.shape, shape, isClosed, running]
  exact .source _

namespace Plan
variable {limits : Limits}

/-- A check that was passed, or not made. -/
theorem of_checked {α : Type} {checks : Prop} [Decidable checks] {check : Except Failure Unit}
    {rest : Except Failure α} {a : α}
    (made : (if checks then check >>= fun _ => rest else rest) = .ok a) : rest = .ok a := by
  split at made
  · obtain ⟨_, _, made⟩ := bind_eq_ok made
    exact made
  · exact made

theorem open_makeNode {context : Context} {direct : Bool} {kind : PlanKind}
    {children : List (Tree Source)} (running : ∀ tree ∈ children, tree.shape.Open) {built : Built}
    (made : makeNode context direct kind children = .ok built) : built.1.shape.Open := by
  cases kind with
  | replay schema drafts =>
    obtain ⟨blocks, _, made⟩ := bind_eq_ok made
    split at made
    · obtain ⟨r, created, made⟩ := bind_eq_ok made
      cases made
      exact Source.open_replay (Replay.open_ofBlocks created)
    · obtain ⟨r, created, made⟩ := bind_eq_ok made
      cases made
      exact Source.open_replay (Replay.open_create created)
    · obtain ⟨_, _, made⟩ := bind_eq_ok made
      obtain ⟨r, created, made⟩ := bind_eq_ok made
      cases made
      exact Source.open_replay (Replay.open_create created)
  | exchange schema capacity =>
    simp only [makeNode] at made
    split at made
    · cases made
      exact .source true
    · obtain ⟨_, _, made⟩ := bind_eq_ok made
      cases made
      exact .source true
  | window draft =>
    obtain ⟨query, _, made⟩ := bind_eq_ok made
    have made := of_checked made
    cases children with
    | nil => contradiction
    | cons child others =>
      obtain ⟨stage, accepted, made⟩ := bind_eq_ok made
      obtain ⟨_, _, _, _, rfl⟩ := Query.windowStage_eq_ok accepted
      cases made
      exact .window (running child List.mem_cons_self)
  | merge draft =>
    obtain ⟨query, _, made⟩ := bind_eq_ok made
    obtain ⟨stage, accepted, made⟩ := bind_eq_ok (of_checked made)
    obtain ⟨_, _, _, _, _, _, _, rfl⟩ := Query.mergeStage_eq_ok accepted
    cases made
    rw [Tree.shape_merge, List.map_map]
    refine .merge fun shape member => ?_
    obtain ⟨child, inside, rfl⟩ := List.mem_map.1 member
    exact running child inside
  | script schema drafts closeFailure =>
    obtain ⟨_, _, made⟩ := bind_eq_ok made
    cases made
    exact .source true

mutual

theorem open_makeTree (plan : Plan) {built : Built} (made : plan.makeTree limits = .ok built) :
    built.1.shape.Open := by
  match plan with
  | node name id direct kind children =>
    rw [makeTree] at made
    obtain ⟨below, under, made⟩ := bind_eq_ok made
    obtain ⟨⟨tree, lines⟩, above, made⟩ := bind_eq_ok made
    cases made
    have running : ∀ tree ∈ below.map (·.1), tree.shape.Open := by
      intro tree member
      obtain ⟨child, inside, rfl⟩ := List.mem_map.1 member
      exact open_makeTrees children under child inside
    exact (open_makeNode running above : (tree, lines).1.shape.Open)

theorem open_makeTrees (plans : List Plan) {built : List Built}
    (made : makeTrees limits plans = .ok built) : ∀ child ∈ built, child.1.shape.Open := by
  match plans with
  | [] =>
    rw [makeTrees] at made
    cases made
    exact nofun
  | plan :: rest =>
    rw [makeTrees] at made
    obtain ⟨first, plans, made⟩ := bind_eq_ok made
    obtain ⟨later, more, made⟩ := bind_eq_ok made
    cases made
    exact List.forall_mem_cons.2 ⟨open_makeTree plan plans, open_makeTrees rest more⟩

end

end Plan

theorem Tree.shape_dropShadowed (tree : Tree Source) : tree.dropShadowed.shape = tree.shape := by
  rw [dropShadowed]
  generalize tree.sources = sources
  induction sources generalizing tree with
  | nil => rfl
  | cons source rest ih =>
    rw [List.foldl_cons, ih]
    dsimp only
    split
    · split
      · rfl
      · exact tree.shape_act (fun s => s.shape_onExchange fun _ => rfl) _
    · rfl

/-- Nothing is closed in a tree that is made by a plan. -/
theorem Plan.open_make {plan : Plan} {limits : Limits} {built : Built}
    (made : plan.make limits = .ok built) : built.1.shape.Open := by
  rw [make] at made
  cases planned : plan.makeTree limits with
  | error e => rw [planned] at made; contradiction
  | ok before =>
    rw [planned] at made
    cases made
    rw [Tree.shape_dropShadowed]
    exact open_makeTree plan planned

end WindowFold
