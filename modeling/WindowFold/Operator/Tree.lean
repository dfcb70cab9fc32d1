import WindowFold.Operator.MergeStage

/-! Trees of stages over sources. A tree is an operator if its sources are. -/
namespace WindowFold

inductive Tree (σ : Type) where
  | source (source : σ)
  | window (stage : WindowStage) (child : Tree σ)
  | merge (stage : MergeStage) (inlets : List (Inlet (Tree σ)))

namespace Tree
variable {σ : Type}

mutual

/-- The sources from left to right, each with the way down to it. -/
def sources : Tree σ → List (List Nat × σ)
  | source s => [([], s)]
  | window _ child => child.sources.map fun (path, s) => (0 :: path, s)
  | merge _ inlets => inletsSources 0 inlets

def inletsSources (index : Nat) : List (Inlet (Tree σ)) → List (List Nat × σ)
  | [] => []
  | inlet :: rest =>
    (inletSources inlet).map (fun (path, s) => (index :: path, s)) ++ inletsSources (index + 1) rest

def inletSources : Inlet (Tree σ) → List (List Nat × σ)
  | ⟨child, _, _, _⟩ => child.sources

end

variable {α : Type}

mutual

/-- Acts on the source at the end of a path, if there is one. -/
def act (f : σ → α × σ) : Tree σ → List Nat → Option α × Tree σ
  | source s, [] =>
    let (result, s) := f s
    (some result, source s)
  | window w child, 0 :: path =>
    let (result, child) := act f child path
    (result, window w child)
  | merge m inlets, index :: path =>
    let (result, inlets) := actInlets f inlets index path
    (result, merge m inlets)
  | tree, _ => (none, tree)

def actInlets (f : σ → α × σ) :
    List (Inlet (Tree σ)) → Nat → List Nat → Option α × List (Inlet (Tree σ))
  | [], _, _ => (none, [])
  | inlet :: rest, 0, path =>
    let (result, inlet) := actInlet f inlet path
    (result, inlet :: rest)
  | inlet :: rest, index + 1, path =>
    let (result, rest) := actInlets f rest index path
    (result, inlet :: rest)

def actInlet (f : σ → α × σ) : Inlet (Tree σ) → List Nat → Option α × Inlet (Tree σ)
  | ⟨child, held, mayPull, ended⟩, path =>
    let (result, child) := act f child path
    (result, ⟨child, held, mayPull, ended⟩)

end

variable [Operator σ]

def schema : Tree σ → Schema
  | source s => Operator.schema s
  | window w _ => w.schema
  | merge m _ => m.schema

def hasNext : Tree σ → Except Failure Bool
  | source s => Operator.hasNext s
  | window w _ => .ok w.hasNext
  | merge m _ => .ok m.hasNext

mutual

/-- A merge asks its children from left to right, up to the first that is not ready. -/
def readiness : Tree σ → Readiness × Tree σ
  | source s =>
    let (r, s) := Operator.readiness s
    (r, source s)
  | window w child =>
    if w.asksChild then
      let (r, child) := child.readiness
      (r.under 0, window w child)
    else (.ready, window w child)
  | merge m inlets =>
    if m.closed then (.ready, merge m inlets)
    else
      let (r, inlets) := inletsReadiness 0 inlets
      (r, merge m inlets)

def inletsReadiness (index : Nat) : List (Inlet (Tree σ)) → Readiness × List (Inlet (Tree σ))
  | [] => (.ready, [])
  | inlet :: rest =>
    if inlet.ended then
      let (r, rest) := inletsReadiness (index + 1) rest
      (r, inlet :: rest)
    else
      let (r, inlet) := inletReadiness inlet
      match r with
      | .waiting ticket => (.waiting (ticket.under index), inlet :: rest)
      | .ready =>
        let (r, rest) := inletsReadiness (index + 1) rest
        (r, inlet :: rest)

def inletReadiness : Inlet (Tree σ) → Readiness × Inlet (Tree σ)
  | ⟨child, held, mayPull, ended⟩ =>
    let (r, child) := child.readiness
    (r, ⟨child, held, mayPull, ended⟩)

end

mutual

def next : Tree σ → Attempt (Tree σ) Answer
  | source s =>
    let (outcome, s) := Operator.next s
    (outcome, source s)
  | window w child =>
    let (outcome, w, child) := w.next hasNext (fun _ => child.next) child
    (outcome, window w child)
  | merge m inlets =>
    let (outcome, m, inlets) := m.next hasNext (lanes inlets)
    (outcome, merge m inlets)

/-- A child is pulled at most once in a call, so its pull is that of the child
at the start of the call. -/
def lanes : List (Inlet (Tree σ)) → List (Lane (Tree σ))
  | [] => []
  | inlet :: rest => lane inlet :: lanes rest

def lane : Inlet (Tree σ) → Lane (Tree σ)
  | ⟨child, held, mayPull, ended⟩ =>
    ⟨⟨child, held, mayPull, ended⟩, fun _ => child.next⟩

end

mutual

/-- Every child is closed, also after one that fails; the first failure counts. -/
def close : Tree σ → Attempt (Tree σ) Unit
  | source s =>
    let (outcome, s) := Operator.close s
    (outcome, source s)
  | window w child =>
    if w.closed then (.ok (), window w child)
    else
      let (outcome, child) := child.close
      (outcome, window w.close child)
  | merge m inlets =>
    if m.closed then (.ok (), merge m inlets)
    else
      let (outcome, inlets) := closeInlets inlets
      (outcome, merge m.close inlets)

def closeInlets : List (Inlet (Tree σ)) → Attempt (List (Inlet (Tree σ))) Unit
  | [] => (.ok (), [])
  | inlet :: rest =>
    let (outcome, inlet) := closeInlet inlet
    let (later, rest) := closeInlets rest
    (match outcome with
      | .error e => .error e
      | .ok () => later, inlet :: rest)

def closeInlet : Inlet (Tree σ) → Attempt (Inlet (Tree σ)) Unit
  | ⟨child, _, mayPull, ended⟩ =>
    let (outcome, child) := child.close
    (outcome, ⟨child, none, mayPull, ended⟩)

end

def poll (ticket : Ticket) (tree : Tree σ) : Bool × Tree σ :=
  let (result, tree) := tree.act (Operator.poll ticket) ticket.path
  (result.getD true, tree)

def isComplete (ticket : Ticket) (tree : Tree σ) : Bool :=
  ((tree.act (fun s => (Operator.isComplete ticket s, s)) ticket.path).1).getD true

def release (ticket : Ticket) (tree : Tree σ) : Tree σ :=
  (tree.act (fun s => ((), Operator.release ticket s)) ticket.path).2

mutual

/-- Each stage gives an answer for a window, or for an answer of a child. -/
def work : Tree σ → Nat
  | source s => Operator.work s
  | window w child => w.windowsLeft + child.work + 1
  | merge m inlets => m.windowsLeft + inletsWork inlets + 1

def inletsWork : List (Inlet (Tree σ)) → Nat
  | [] => 0
  | inlet :: rest => inletWork inlet + 1 + inletsWork rest

def inletWork : Inlet (Tree σ) → Nat
  | ⟨child, _, _, _⟩ => child.work

end

instance : Operator (Tree σ) where
  schema := schema
  hasNext := hasNext
  readiness := readiness
  next := next
  close := close
  poll := poll
  isComplete := isComplete
  release := release
  work := work

end Tree
end WindowFold
