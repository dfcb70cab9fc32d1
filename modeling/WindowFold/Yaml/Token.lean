import WindowFold.Yaml.Tag

/-! What a text in YAML is made of. -/
namespace WindowFold.Yaml

/-- How a scalar is written. -/
inductive Style where
  | plain
  | quoted
  /-- Line by line, as the lines are. -/
  | literal
  /-- Line by line, lines joined. -/
  | folded
  deriving DecidableEq

inductive Token where
  /-- A direction: the version of the language. -/
  | version (major minor : Nat)
  /-- A direction: what a handle stands for. -/
  | handle (name : String) (tag : Tag)
  | documentStart
  | documentEnd
  /-- The beginning of a collection by its indentation, and its end. -/
  | sequenceStart
  | mappingStart
  | blockEnd
  /-- Brackets and braces. -/
  | flowSequenceStart
  | flowSequenceEnd
  | flowMappingStart
  | flowMappingEnd
  /-- A comma. -/
  | separator
  /-- A dash. -/
  | item
  | key
  | value
  /-- A name that is given to a node, and the node of a name over again. -/
  | name (name : String)
  | repetition (name : String)
  | tag (handle : String) (suffix : Tag)
  | scalar (style : Style) (text : String)
  deriving DecidableEq

end WindowFold.Yaml
