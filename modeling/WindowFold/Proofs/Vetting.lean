import WindowFold.Proofs.Announcements
import WindowFold.Proofs.Probing

/-! What the making of a stage leaves to its calls. Of the columns that an aggregation reads
the first is looked up when the aggregation is made; the others are missed only once there
is a row in a window. -/
namespace WindowFold

def Failure.isMalformed : Failure → Bool
  | malformedBlock _ => true
  | _ => false

/-- The columns of this schema, without nulls where none are admitted, and rows in scan order. -/
def Block.Meets (scan : Scan) (schema : Schema) (block : Block) : Prop :=
  block.schema = schema ∧ block.NullFree ∧ scan.Ordered block.rows

instance (scan : Scan) (schema : Schema) (block : Block) : Decidable (block.Meets scan schema) :=
  inferInstanceAs (Decidable (block.schema = schema ∧ block.NullFree ∧ scan.Ordered block.rows))

/-- A time column comes first, as in every block, and a column of dates admits nulls: a date
in place of a number is refused in another way. -/
structure Schema.Usual (schema : Schema) : Prop where
  timed : schema.types.head? = some .int64
  dates : ∀ field ∈ schema, field.type = .date32 → field.nullable = true

namespace Tree
variable {σ τ : Type}

/-- The stage at the top over other children. A window stage has one child. -/
def atop (children : List (Tree τ)) : Tree σ → Option (Tree τ)
  | source _ => none
  | window w _ =>
    match children with
    | [child] => some (window w child)
    | _ => none
  | merge m _ => some (merge m (children.map Inlet.create))

theorem todo?_atop {tree : Tree σ} {other : Tree τ} {children : List (Tree τ)}
    (above : tree.atop children = some other) : other.todo? = tree.todo? := by
  cases tree with
  | source s => cases above
  | window w child =>
    match children with
    | [] | _ :: _ :: _ => cases above
    | [child] =>
      cases above
      rfl
  | merge m inlets =>
    cases above
    rfl

variable [Operator σ]

/-- Over children that announce the same and keep to it, the stage never finds a block
malformed before it is closed, unless a child does. -/
def NeverMalformed (scan : Scan) (tree : Tree σ) : Prop :=
  ∀ (τ : Type) [Operator τ] (children : List (Tree τ)) (other : Tree τ)
    (events : List (Happening τ)),
    children.map (·.schema) = tree.children.map (·.schema) → tree.atop children = some other →
    .asked .close ∉ events →
    (∀ before, before <+: events ++ [.asked .next] → (other.after before).Faithful
      (Block.Meets scan) (·.isMalformed = false)
      (tree.children.map (·.schema))) →
    FailsFor (·.isMalformed = false) (other.after events).next.1

end Tree

namespace Query
variable {q : Query} {σ τ : Type} [Operator σ] [Operator τ] {context : Context} {tree : Tree σ}
  {keepsClipped : Bool}

def Reaches (q : Query) (tree : Tree σ) : Prop :=
  ∀ spec ∈ q.aggregations, ∀ column ∈ spec.inputs, ∀ child ∈ tree.children,
    column < child.schema.length

theorem Tops.atop {children : List (Tree τ)} {other : Tree τ}
    (tops : q.Tops context tree keepsClipped)
    (same : children.map (·.schema) = tree.children.map (·.schema))
    (above : tree.atop children = some other) :
    q.Tops context other keepsClipped ∧ other.children = children := by
  cases tops with
  | @window stage child accepted =>
    match children with
    | [] | _ :: _ :: _ => cases above
    | [twin] =>
      cases above
      have schema : twin.schema = child.schema := List.singleton_inj.1 same
      rw [← schema] at accepted
      exact ⟨.window accepted, rfl⟩
  | @merge stage olds accepted =>
    cases above
    rw [Tree.children_create] at same
    rw [← same] at accepted
    exact ⟨.merge accepted, Tree.children_create stage children⟩

theorem Tops.exists_atop (tops : q.Tops context tree keepsClipped) {children : List (Tree τ)}
    (same : children.map (·.schema) = tree.children.map (·.schema)) :
    ∃ other, tree.atop children = some other := by
  cases tops with
  | window accepted =>
    have one := congrArg List.length same
    rw [List.length_map] at one
    obtain ⟨twin, rfl⟩ := List.length_eq_one_iff.1 one
    exact ⟨_, rfl⟩
  | merge accepted => exact ⟨_, rfl⟩

theorem Reaches.of_same {other : Tree τ} (reaches : q.Reaches tree)
    (same : other.children.map (·.schema) = tree.children.map (·.schema)) : q.Reaches other := by
  intro spec asked column listed child member
  have inside : child.schema ∈ tree.children.map (·.schema) := same ▸ List.mem_map_of_mem member
  obtain ⟨twin, there, schema⟩ := List.mem_map.1 inside
  rw [← schema]
  exact reaches spec asked column listed twin there

theorem Reaches.not_lacks (reaches : q.Reaches tree) {first : Tree σ}
    (listed : first ∈ tree.children) {fresh : List Aggregator}
    (made : q.aggregators first.schema = .ok fresh) :
    ∀ a ∈ fresh, ¬ a.Lacks first.schema.types := by
  rintro a member ⟨column, read, far⟩
  obtain ⟨spec, asked, created⟩ := exists_left (aggregators_eq_ok.1 made).2 member
  obtain ⟨_, _, _, _, _, inputs, _, _⟩ := Aggregator.of_create created
  rw [inputs] at read
  have near := reaches spec asked column read first listed
  rw [Schema.types, List.length_map] at far
  omega

theorem failsFor_done {tree : Tree σ} (done : tree.todo? = some []) :
    FailsFor (fun e => ∃ name, e = .protocolViolation name .pulledAfterClose) tree.next.1 := by
  cases closed : tree.isClosed with
  | true =>
    obtain ⟨name, refused⟩ := (Tree.shut_of_isClosed closed).next
    rw [refused]
    intro e failed
    cases failed
    exact ⟨name, rfl⟩
  | false =>
    rw [(Tree.next_nil closed done).1]
    exact failsFor_ok _

/-- Without a window there is nothing to read columns for, and where all of them are there
none is missed. -/
theorem Tops.neverMalformed (tops : q.Tops context tree keepsClipped)
    (vetted : tree.todo? = some [] ∨ q.Reaches tree) : tree.NeverMalformed q.scan := by
  intro τ _ children other events same above _ faithful e failed
  obtain ⟨anew, own⟩ := tops.atop same above
  subst own
  rcases vetted with none | reaches
  · obtain ⟨left, todo, part⟩ := Tree.todo_after other ((Tree.todo?_atop above).trans none) events
    rw [List.sublist_nil.1 part] at todo
    obtain ⟨name, rfl⟩ := failsFor_done todo e failed
    rfl
  rw [← same] at faithful
  obtain ⟨first, listed, fresh, made, _, _, fails, _⟩ :=
    anew.answers_after events (fun meets => congrArg Schema.types meets.1) faithful
  cases fails e failed with
  | child own =>
    rcases own with hale | ⟨name, rfl⟩
    · exact hale
    · rfl
  | disorder scan row => rfl
  | refused refused =>
    obtain ⟨a, member, refuses⟩ := refused
    cases refuses with
    | mismatch unlike => rfl
    | @missing column found =>
      have far : first.schema.types.length ≤ column := by simpa using List.find?_some found
      exact absurd ⟨column, List.mem_of_find?_eq_some found, far⟩
        ((reaches.of_same same).not_lacks listed made a member)

theorem exists_lacks (unreached : ¬ q.Reaches tree) (first : Tree σ)
    (alike : ∀ child ∈ tree.children, child.schema.types = first.schema.types)
    {fresh : List Aggregator} (made : q.aggregators first.schema = .ok fresh) :
    ∃ a ∈ fresh, a.Lacks first.schema.types := by
  simp only [Reaches, not_forall, Nat.not_lt] at unreached
  obtain ⟨spec, asked, column, read, child, member, far⟩ := unreached
  obtain ⟨a, listed, created⟩ := exists_right (aggregators_eq_ok.1 made).2 asked
  obtain ⟨_, _, _, _, _, inputs, _, _⟩ := Aggregator.of_create created
  refine ⟨a, listed, column, inputs ▸ read, ?_⟩
  rw [← alike child member, Schema.types, List.length_map]
  exact far

/-- Where each child has a row in the first window to give, the first call finds the column
missing, and each child has been pulled. -/
theorem Tops.next_lacking (tops : q.Tops context tree keepsClipped) {window : Window}
    {coming : List Window} (first : tree.todo? = some (window :: coming))
    (unreached : ¬ q.Reaches tree)
    (offers : ∀ child ∈ tree.children, child.hasNext = .ok true ∧
      ∃ block, child.next.1 = .ok (.block block) ∧ block.Probes child.schema.types window.range) :
    ∃ cause, tree.next.1 = .error (.malformedBlock cause) ∧
      tree.next.2.children = tree.children.map fun child => child.next.2 := by
  cases tops with
  | @window _ child accepted =>
    obtain ⟨fresh, series, made, _, rfl⟩ := windowStage_eq_ok accepted
    have windows : series.scanned q.scan = window :: coming := Option.some.inj first
    obtain ⟨more, block, given, probes⟩ := offers child List.mem_cons_self
    have alone :
        ∀ other ∈ (Tree.window (.create context fresh (.start series q.scan)) child).children,
          other.schema.types = child.schema.types := by
      intro other member
      rw [List.mem_singleton.1 member]
    have lacks := exists_lacks unreached child alone made
    obtain ⟨cause, v, called⟩ := WindowStage.next_lacking context (fun _ => child.next)
      windows (able _ made) lacks more (Prod.ext given rfl) probes
    rw [Tree.next, called]
    exact ⟨cause, rfl, rfl⟩
  | @merge _ children accepted =>
    obtain ⟨_, fresh, series, head, alike, made, _, rfl⟩ := mergeStage_eq_ok accepted
    have windows : series.scanned q.scan = window :: coming := Option.some.inj first
    rw [Tree.children_create] at offers
    obtain ⟨one, listed, rfl⟩ := List.mem_map.1 (List.mem_of_head? head)
    have same : ∀ child ∈ children, child.schema.types = one.schema.types :=
      fun child member => alike child.schema (List.mem_map_of_mem member)
    have lacks := exists_lacks unreached one (by rwa [Tree.children_create]) made
    have lanes : Tree.lanes (children.map Inlet.create) =
        children.map fun child => ⟨Inlet.create child, fun _ => child.next⟩ := by
      rw [Tree.lanes_eq, List.map_map]
      rfl
    have some : Tree.lanes (children.map Inlet.create) ≠ [] := by
      rw [lanes]
      exact List.map_eq_nil_iff.not.2 (List.ne_nil_of_mem listed)
    have offer : ∀ lane ∈ Tree.lanes (children.map Inlet.create),
        MergeStage.Offers Tree.hasNext one.schema.types window.range lane := by
      rw [lanes]
      intro lane member
      obtain ⟨child, inside, rfl⟩ := List.mem_map.1 member
      obtain ⟨more, block, given, probes⟩ := offers child inside
      rw [same child inside] at probes
      exact ⟨rfl, rfl, more, block, given, probes⟩
    obtain ⟨cause, m, inlets, called, after⟩ :=
      MergeStage.next_lacking context windows (able _ made) lacks some offer
    rw [Tree.next, called]
    refine ⟨cause, rfl, ?_⟩
    rw [Tree.children_create]
    rw [lanes, List.map_map] at after
    exact after

theorem Tops.exists_todo (tops : q.Tops context tree keepsClipped)
    (clock : ∀ g ∈ q.grouping, g.OnClock) :
    ∃ todo, tree.todo? = some todo ∧ InTurn q.scan todo := by
  obtain ⟨series, windows, todo⟩ := tops.exists_series
  exact ⟨_, todo, WindowSeries.inTurn q.scan clock windows⟩

def probing (schema : Schema) (time : Timestamp) : Tree Script :=
  .source (.create "child" schema [.answer (.block (.probe schema time))] none)

theorem faithful_probing {schemas : List Schema} {time : Timestamp} {scan : Scan}
    {other : Tree Script} (usual : ∀ schema ∈ schemas, schema.Usual)
    (own : other.children = schemas.map (probing · time) ∨
      other.children = schemas.map fun schema => (probing schema time).next.2) :
    other.Faithful (Block.Meets scan) (·.isMalformed = false) schemas := by
  rcases own with own | own
  all_goals
    constructor
    · rw [own, List.forall₂_map_right_iff, List.forall₂_same]
      intro schema member block given
      cases given
      try exact ⟨Block.schema_probe (usual schema member).timed, Block.nullFree_probe,
        Block.ordered_probe scan⟩
    · rw [own, List.forall_mem_map]
      intro schema _
      exact ⟨failsFor_ok _, failsFor_ok _⟩

theorem Tops.not_neverMalformed (tops : q.Tops context tree keepsClipped)
    (clock : ∀ g ∈ q.grouping, g.OnClock) (usual : ∀ child ∈ tree.children, child.schema.Usual)
    (some : tree.todo? ≠ some []) (unreached : ¬ q.Reaches tree) :
    ¬ tree.NeverMalformed q.scan := by
  intro never
  obtain ⟨todo, windows, turn⟩ := tops.exists_todo clock
  obtain ⟨window, coming, rfl⟩ : ∃ window coming, todo = window :: coming :=
    List.exists_cons_of_ne_nil fun none => some (none ▸ windows)
  let schemas := tree.children.map (·.schema)
  let children := schemas.map (probing · window.outputTime)
  have usual : ∀ schema ∈ schemas, schema.Usual := List.forall_mem_map.2 usual
  have same : children.map (·.schema) = tree.children.map (·.schema) :=
    List.map_map.trans (List.map_id schemas)
  obtain ⟨other, above⟩ := tops.exists_atop same
  obtain ⟨anew, own⟩ := tops.atop same above
  have offers : ∀ child ∈ other.children, child.hasNext = .ok true ∧
      ∃ block, child.next.1 = .ok (.block block) ∧
        block.Probes child.schema.types window.range := by
    rw [own, List.forall_mem_map]
    intro schema member
    have usual := usual schema member
    exact ⟨rfl, _, rfl, Block.probes_probe usual.timed usual.dates
      (turn.real window List.mem_cons_self)⟩
  have missing : ¬ q.Reaches other := by
    rw [← own] at same
    exact fun reaches => unreached (reaches.of_same same.symm)
  obtain ⟨cause, failed, after⟩ :=
    anew.next_lacking ((Tree.todo?_atop above).trans windows) missing offers
  have spent : other.next.2.children =
      schemas.map fun schema => (probing schema window.outputTime).next.2 := by
    rw [own, List.map_map] at after
    exact after
  have refuted := never Script children other [] same above List.not_mem_nil ?_ _ failed
  · cases refuted
  intro before part
  simp only [List.nil_append, List.prefix_cons_iff, List.prefix_nil] at part
  rcases part with rfl | ⟨_, rfl, rfl⟩
  · exact faithful_probing usual (.inl own)
  · exact faithful_probing usual (.inr spent)

/-- A block is found malformed in some run exactly if there is a window to read rows for
and an aggregation reads a column that is not there. -/
theorem neverMalformed_iff (tops : q.Tops context tree keepsClipped) :
    (tree.todo? = some [] ∨ q.Reaches tree → tree.NeverMalformed q.scan) ∧
    ((∀ g ∈ q.grouping, g.OnClock) → (∀ child ∈ tree.children, child.schema.Usual) →
      tree.NeverMalformed q.scan → tree.todo? = some [] ∨ q.Reaches tree) := by
  refine ⟨tops.neverMalformed, fun clock usual never => ?_⟩
  by_contra unvetted
  rw [not_or] at unvetted
  exact tops.not_neverMalformed clock usual unvetted.1 unvetted.2 never

/-- The average of partial results, which have a number of rows and a sum. The column of
the sum is mistaken for one far off. -/
def mistaken : Query where
  aggregations := [⟨.avg, .closing, [1, 7], none⟩]
  grouping := some ⟨0, 20, .millis 10, none, true⟩
  scan := .ascending
  keepsClipped := true

def mistakenBlock : Block :=
  ⟨"time", false, [3], [⟨"rows", true, ⟨.int64, [some 2]⟩⟩, ⟨"total", true, ⟨.float64, [none]⟩⟩],
    by decide⟩

def mistakenChild : Tree Script :=
  .source (.create "child" mistakenBlock.schema [.answer (.block mistakenBlock)] none)

/-- What reaches every column never finds a block malformed, what is mistaken may. -/
theorem neverMalformed_iff_mistaken :
    ∃ merge window,
      gathered.mergeStage (rowsAtMost 1) (gatheredChildren.map (·.schema)) = .ok merge ∧
      mistaken.windowStage .standard mistakenChild.schema = .ok window ∧
      (Tree.merge merge (gatheredChildren.map Inlet.create)).NeverMalformed gathered.scan ∧
      ¬ (Tree.window window mistakenChild).NeverMalformed mistaken.scan := by
  have accepted : gathered.mergeStage (rowsAtMost 1) (gatheredChildren.map (·.schema)) = .ok _ :=
    rfl
  have allowed : mistaken.windowStage .standard mistakenChild.schema = .ok _ := rfl
  refine ⟨_, _, accepted, allowed, ?_, fun never => ?_⟩
  · apply (neverMalformed_iff (.merge accepted)).1
    refine .inr fun spec asked column read child member => ?_
    rw [Tree.children_create] at member
    have own : child.schema = gatheredBlock.schema := by
      simp only [gatheredChildren, List.map_cons, List.map_nil, List.mem_cons, List.not_mem_nil,
        or_false] at member
      rcases member with rfl | rfl <;> rfl
    rw [own]
    revert spec column
    decide
  · have clock : ∀ g ∈ mistaken.grouping, g.OnClock := by
      simp [mistaken, Grouping.OnClock]
      decide
    have usual : ∀ child ∈ [mistakenChild], child.schema.Usual := by
      intro child member
      rw [List.mem_singleton.1 member]
      exact ⟨rfl, by decide⟩
    rcases (neverMalformed_iff (.window allowed)).2 clock usual never with none | reaches
    · revert none
      decide
    · have near := reaches _ List.mem_cons_self 7 (by decide) mistakenChild List.mem_cons_self
      revert near
      decide

/-- The mistaken stage is accepted, and its first call fails over a row of its child that
is as announced. -/
theorem mistaken_malformed :
    ∃ stage, mistaken.windowStage .standard mistakenChild.schema = .ok stage ∧
      let tree := Tree.window stage mistakenChild
      (∀ before, before <+: [.asked .next] → (tree.after before).Faithful
        (Block.Meets mistaken.scan) (·.isMalformed = false) [mistakenChild.schema]) ∧
      tree.next.1 = .error (.malformedBlock (.missingColumn "avg(rows)" 7 3)) := by
  have accepted : mistaken.windowStage .standard mistakenChild.schema = .ok _ := rfl
  refine ⟨_, accepted, fun before part => ?_, by decide +kernel⟩
  simp only [List.prefix_cons_iff, List.prefix_nil] at part
  rcases part with rfl | ⟨_, rfl, rfl⟩
  all_goals decide +kernel

end Query
end WindowFold
