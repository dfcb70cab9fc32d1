import WindowFold.Yaml.Token

/-! The nodes of a document. -/
namespace WindowFold.Yaml

inductive Node where
  | scalar (style : Style) (tag : Option Tag) (text : String)
  | sequence (items : List Node)
  | mapping (entries : List (Node × Node))
  /-- A collection with a tag. -/
  | tagged (tag : Tag) (node : Node)
  /-- A node with a number, for other places to repeat. -/
  | numbered (number : Nat) (node : Node)
  /-- The node of a number over again. -/
  | repetition (number : Nat)

namespace Node

def plain (text : String) : Node := .scalar .plain none text

/-- What stands where nothing is written. -/
def empty : Node := plain ""

mutual

/-- The scalars, the repetitions, and the beginnings and ends of collections. -/
def size : Node → Nat
  | scalar _ _ _ | repetition _ => 1
  | sequence items => sizeOfItems items + 2
  | mapping entries => sizeOfEntries entries + 2
  | tagged _ node | numbered _ node => node.size

def sizeOfItems : List Node → Nat
  | [] => 0
  | item :: items => item.size + sizeOfItems items

def sizeOfEntries : List (Node × Node) → Nat
  | [] => 0
  | entry :: entries => sizeOfEntry entry + sizeOfEntries entries

def sizeOfEntry : Node × Node → Nat
  | (key, value) => key.size + value.size

end

end Node

/-- Nodes by their numbers, those that begin last first. -/
abbrev Numbered := List (Nat × Node)

namespace Node

mutual

/-- Adds the nodes that have a number, in the order in which they begin. -/
def collect : Node → Numbered → Numbered
  | scalar _ _ _, found | repetition _, found => found
  | sequence items, found => collectItems items found
  | mapping entries, found => collectEntries entries found
  | tagged _ node, found => node.collect found
  | numbered number node, found => node.collect ((number, node) :: found)

def collectItems : List Node → Numbered → Numbered
  | [], found => found
  | item :: items, found => collectItems items (item.collect found)

def collectEntries : List (Node × Node) → Numbered → Numbered
  | [], found => found
  | entry :: entries, found => collectEntries entries (collectEntry entry found)

def collectEntry : Node × Node → Numbered → Numbered
  | (key, value), found => value.collect (key.collect found)

end

end Node
end WindowFold.Yaml
