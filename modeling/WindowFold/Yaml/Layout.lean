import WindowFold.Yaml.Quoting
import WindowFold.Yaml.Value

/-! Nodes as lines in block style. A sequence within a mapping stands at the
column of its key, a mapping two columns deeper; an empty collection is written
as its two signs. Tags and names of nodes are left out. -/
namespace WindowFold.Yaml.Node

/-- What stands between a colon and the value of a key at column `column`, and
the column of that value. -/
def lead (column : Nat) : Node → List Char × Nat
  | sequence (_ :: _) => ('\n' :: blanks column, column)
  | mapping (_ :: _) => ('\n' :: blanks (column + 2), column + 2)
  | _ => ([' '], column + 2)

mutual

/-- The lines of a node, the first one from column `column` on. -/
def write (column : Nat) : Node → List Char
  | scalar style _ text => writeScalar column style text
  | sequence items =>
    if items.isEmpty then ['[', ']', '\n'] else writeItems column true items
  | mapping entries =>
    if entries.isEmpty then ['\x7b', '\x7d', '\n'] else writeEntries column true entries
  | tagged _ node | numbered _ node => write column node
  | repetition number => '*' :: (toString number).toList ++ ['\n']

/-- Items at a column, where the first one begins already. -/
def writeItems (column : Nat) (first : Bool) : List Node → List Char
  | [] => []
  | item :: items =>
    (if first then [] else blanks column) ++ ['-', ' '] ++ write (column + 2) item
      ++ writeItems column false items

def writeEntries (column : Nat) (first : Bool) : List (Node × Node) → List Char
  | [] => []
  | entry :: entries =>
    (if first then [] else blanks column) ++ writeEntry column entry
      ++ writeEntries column false entries

def writeEntry (column : Nat) : Node × Node → List Char
  | (key, value) =>
    (key.text?.getD "").toList ++ [':'] ++ (value.lead column).1
      ++ write (value.lead column).2 value

end

def render (node : Node) : String := String.ofList (node.write 0)

end WindowFold.Yaml.Node
