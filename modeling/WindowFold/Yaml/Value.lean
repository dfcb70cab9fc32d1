import WindowFold.Yaml.Document
import WindowFold.Yaml.Plain

/-! Nodes as values of given types. Only plain text can stand for anything else
than text; nothing written stands for an absent value, and for an empty collection. -/
namespace WindowFold.Yaml

/-- Reading a value within a document: the nodes that it repeats are at hand, and
only so many repetitions may still be followed. -/
def Reading (α : Type) := Numbered → Nat → Option (α × Nat)

namespace Reading

instance : Monad Reading where
  pure x := fun _ left => some (x, left)
  bind r f := fun nodes left => (r nodes left).bind fun (x, left) => f x nodes left

instance : LawfulMonad Reading := LawfulMonad.mk' Reading
  (fun r => by funext nodes left; exact Option.bind_fun_some (r nodes left))
  (fun _ _ => rfl)
  (fun r _ _ => by funext nodes left; cases h : r nodes left <;> simp [bind, h])

def ofOption {α : Type} (x : Option α) : Reading α := fun _ left => x.map (·, left)

def refuse {α : Type} : Reading α := ofOption none

/-- Reads the root of a document. A hundred repetitions for each part of it may be followed. -/
def run {α : Type} (read : Node → Reading α) (root : Node) : Option α :=
  (read root (root.collect []) (100 * root.size)).map (·.1)

end Reading

namespace Node

/-- The node itself, where it is a repetition or has a number. -/
def target : Node → Reading Node
  | repetition number => fun nodes left =>
    match left with
    | 0 => none
    | left + 1 => (nodes.lookup number).map (·, left)
  | numbered _ node => pure node
  | node => pure node

/-- The text of a scalar, however it is written. -/
def text? : Node → Option String
  | scalar _ _ text => some text
  | _ => none

def readText (node : Node) : Reading String := do
  Reading.ofOption (← node.target).text?

/-- Text that may stand for a value of a kind: plain text, and text written line
by line if its tag says so. -/
def valueText? (kind : String) : Node → Option String
  | scalar .plain _ text => some text
  | scalar .literal (some tag) text => if tag = Tag.standard kind then some text else none
  | _ => none

def readBoolean (node : Node) : Reading Bool := do
  Reading.ofOption (((← node.target).valueText? "bool").bind Plain.boolean?)

/-- A number below a bound. -/
def readNatural (bound : Nat) (node : Node) : Reading Nat := do
  Reading.ofOption
    ((((← node.target).valueText? "int").bind Plain.natural?).filter (· < bound))

/-- A count or an index: 64 bits without a sign. -/
def readCount (node : Node) : Reading Nat := node.readNatural UInt64.size

/-- 64 bits with a sign. -/
def readInteger (node : Node) : Reading Int := do
  Reading.ofOption
    ((((← node.target).valueText? "int").bind Plain.integer?).bind IntType.int64.fit?)

/-- One word of several: the text, or a tag of the document's own on nothing. -/
def word? : Node → Option String
  | scalar style tag text =>
    match tag.bind Tag.localName? with
    | some name => if style = .plain && (text.isEmpty || Plain.isNull text) then some name else none
    | none => some text
  | _ => none

def readWord {α : Type} (ofName? : String → Option α) (node : Node) : Reading α := do
  Reading.ofOption ((← node.target).word?.bind ofName?)

def ofBoolean (b : Bool) : Node := plain (if b then "true" else "false")

/-- Whether a value is there; none if what is written is neither a value nor nothing. -/
def isPresent? : Node → Option Bool
  | scalar .plain none text => some !(text.isEmpty || Plain.isNull text)
  | scalar .plain (some tag) text =>
    if tag = Tag.standard "null" then if Plain.isNull text then some false else none
    else some true
  | _ => some true

/-- A value that may be absent. -/
def readOptional {α : Type} (read : Node → Reading α) (node : Node) : Reading (Option α) := do
  let node ← node.target
  if ← Reading.ofOption node.isPresent? then return some (← read node)
  else return none

/-- An absent value is written as `null`. -/
def ofOptional {α : Type} (toNode : α → Node) : Option α → Node
  | some value => toNode value
  | none => plain "null"

def items? : Node → Option (List Node)
  | sequence items => some items
  | tagged _ node => node.items?
  | scalar .plain _ text => if text.isEmpty then some [] else none
  | _ => none

def readList {α : Type} (read : Node → Reading α) (node : Node) : Reading (List α) := do
  (← Reading.ofOption (← node.target).items?).mapM read

end Node

/-- The entries of a mapping by name. -/
abbrev Fields := List (String × Node)

namespace Node

def entries? : Node → Option (List (Node × Node))
  | mapping entries => some entries
  | tagged _ node => node.entries?
  | scalar .plain _ text => if text.isEmpty then some [] else none
  | _ => none

/-- Every key must be a scalar. -/
def readFields (node : Node) : Reading Fields := do
  (← Reading.ofOption (← node.target).entries?).mapM fun (key, value) => do
    return (← key.readText, value)

/-- The only entry of a mapping that has no tag of the document's own. -/
def readSole (node : Node) : Reading (String × Node) := do
  let node ← node.target
  let entry ←
    match node with
    | mapping [entry] => pure entry
    | tagged tag (mapping [entry]) => if tag.localName?.isSome then Reading.refuse else pure entry
    | _ => Reading.refuse
  return (← entry.1.readText, entry.2)

end Node

namespace Fields

/-- The value of a name, if it has one; two are refused. -/
def find? (fields : Fields) (name : String) : Option (Option Node) :=
  match fields.filter (·.1 = name) with
  | [] => some none
  | [(_, node)] => some (some node)
  | _ => none

def required {α : Type} (fields : Fields) (name : String) (read : Node → Reading α) : Reading α :=
  match fields.find? name with
  | some (some node) => read node
  | _ => Reading.refuse

def getD {α : Type} (fields : Fields) (name : String) (default : α) (read : Node → Reading α) :
    Reading α :=
  match fields.find? name with
  | some (some node) => read node
  | some none => pure default
  | none => Reading.refuse

end Fields
end WindowFold.Yaml
