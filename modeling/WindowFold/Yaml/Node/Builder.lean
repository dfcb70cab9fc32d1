import WindowFold.Yaml.Node

/-! Nodes of tokens. Where a node may stand and none does, an empty one stands. -/
namespace WindowFold.Yaml

/-- Tokens that are still to be read, and the names so far with their numbers. -/
structure Cursor where
  tokens : List Token
  names : List (String × Nat)

namespace Cursor

def next (c : Cursor) : Cursor := { c with tokens := c.tokens.drop 1 }

def at? (c : Cursor) (tokens : List Token) : Bool := c.tokens.head?.any tokens.contains

/-- A name has the number of different names before it, also if it had one already. -/
def declare (c : Cursor) (name : String) : Nat × Cursor :=
  (c.names.length, { c with names := (name, c.names.length) :: c.names.filter (·.1 ≠ name) })

end Cursor

/-- What stands before a node: a number, a tag, both or neither. -/
structure Properties where
  number : Option Nat
  tag : Option Tag

namespace Properties

def none : Properties := ⟨.none, .none⟩

def isEmpty (p : Properties) : Bool := p.number.isNone && p.tag.isNone

private def withNumber (p : Properties) (node : Node) : Node :=
  match p.number with
  | some number => .numbered number node
  | .none => node

/-- A lone exclamation mark leaves a scalar without a tag. -/
def scalar (p : Properties) (style : Style) (text : String) : Node :=
  p.withNumber (.scalar style (p.tag.filter (· ≠ Tag.unspecific)) text)

/-- An empty node with properties. -/
def empty (p : Properties) : Node := p.withNumber (.scalar .plain p.tag "")

def collection (p : Properties) (node : Node) : Node :=
  p.withNumber (match p.tag with
    | some tag => .tagged tag node
    | .none => node)

/-- Reads a name and a tag, in either order. -/
def read (handles : Handles) (c : Cursor) : Option (Properties × Cursor) :=
  let named (name : String) (tag : Option Tag) (rest : List Token) : Properties × Cursor :=
    let (number, c) := c.declare name
    (⟨some number, tag⟩, { c with tokens := rest })
  match c.tokens with
  | .name name :: .tag handle suffix :: rest | .tag handle suffix :: .name name :: rest =>
    (handles.tag? handle suffix).map fun tag => named name (some tag) rest
  | .name name :: rest => some (named name .none rest)
  | .tag handle suffix :: rest =>
    (handles.tag? handle suffix).map fun tag => (⟨.none, some tag⟩, { c with tokens := rest })
  | _ => some (.none, c)

end Properties

/-- A node, and what follows it. -/
abbrev NodeRead := Option (Node × Cursor)

mutual

/-- A node. Collections without brackets stand only in `block` context; there, a
sequence that is not indented stands only where `dashes` is set. -/
def readNode (handles : Handles) : (fuel : Nat) → (block dashes : Bool) → Cursor → NodeRead
  | 0, _, _, _ => none
  | fuel + 1, block, dashes, c =>
    match c.tokens with
    | .repetition name :: _ =>
      (c.names.lookup name).map fun number => (.repetition number, c.next)
    | _ =>
      match Properties.read handles c with
      | none => none
      | some (p, c) =>
        let whole := Option.map fun (found : Node × Cursor) => (p.collection found.1, found.2)
        match c.tokens, block with
        | .scalar style text :: _, _ => some (p.scalar style text, c.next)
        | .flowSequenceStart :: _, _ => whole (readFlowItems handles fuel true [] c.next)
        | .flowMappingStart :: _, _ => whole (readFlowEntries handles fuel true [] c.next)
        | .sequenceStart :: _, true => whole (readItems handles fuel [] c.next)
        | .mappingStart :: _, true => whole (readEntries handles fuel [] c.next)
        | .item :: _, _ =>
          if dashes then whole (readDashes handles fuel [] c)
          else if p.isEmpty then none
          else some (p.empty, c)
        | _, _ => if p.isEmpty then none else some (p.empty, c)

/-- A node of block context, unless one of the tokens follows at which there is none. -/
def readUnless (handles : Handles) : (fuel : Nat) → (dashes : Bool) → List Token → Cursor → NodeRead
  | 0, _, _, _ => none
  | fuel + 1, dashes, ends, c =>
    if c.at? ends then some (.empty, c) else readNode handles fuel true dashes c

/-- The items of an indented sequence. -/
def readItems (handles : Handles) : (fuel : Nat) → List Node → Cursor → NodeRead
  | 0, _, _ => none
  | fuel + 1, found, c =>
    match c.tokens with
    | .item :: _ =>
      (readUnless handles fuel false [.item, .blockEnd] c.next).bind fun (node, c) =>
        readItems handles fuel (node :: found) c
    | .blockEnd :: _ => some (.sequence found.reverse, c.next)
    | _ => none

/-- The items of a sequence that stands where the keys of its mapping do. -/
def readDashes (handles : Handles) : (fuel : Nat) → List Node → Cursor → NodeRead
  | 0, _, _ => none
  | fuel + 1, found, c =>
    match c.tokens with
    | .item :: _ =>
      (readUnless handles fuel false [.item, .key, .value, .blockEnd] c.next).bind fun (node, c) =>
        readDashes handles fuel (node :: found) c
    | _ => some (.sequence found.reverse, c)

def readEntries (handles : Handles) : (fuel : Nat) → List (Node × Node) → Cursor → NodeRead
  | 0, _, _ => none
  | fuel + 1, found, c =>
    match c.tokens with
    | .key :: _ =>
      let ends := [Token.key, .value, .blockEnd]
      match readUnless handles fuel true ends c.next with
      | none => none
      | some (key, c) =>
        if c.at? [.value] then
          (readUnless handles fuel true ends c.next).bind fun (value, c) =>
            readEntries handles fuel ((key, value) :: found) c
        else readEntries handles fuel ((key, .empty) :: found) c
    | .blockEnd :: _ => some (.mapping found.reverse, c.next)
    | _ => none

/-- A value of the flow behind its key; it may be left out, with its colon or without. -/
def readFlowValue (handles : Handles) : (fuel : Nat) → (close : Token) → Cursor → NodeRead
  | 0, _, _ => none
  | fuel + 1, close, c =>
    if !c.at? [.value] then some (.empty, c)
    else if c.next.at? [.separator, close] then some (.empty, c.next)
    else readNode handles fuel false false c.next

/-- An entry that is an item of a sequence. With no key, the sign that follows
stands for it. -/
def readPair (handles : Handles) : (fuel : Nat) → Cursor → NodeRead
  | 0, _ => none
  | fuel + 1, c =>
    let key :=
      if c.at? [.value, .separator, .flowSequenceEnd] then some (.empty, c.next)
      else readNode handles fuel false false c
    match key with
    | none => none
    | some (key, c) =>
      (readFlowValue handles fuel .flowSequenceEnd c).map fun (value, c) =>
        (.mapping [(key, value)], c)

/-- The items of a sequence in brackets, with commas between them; one may stand
behind the last. -/
def readFlowItems (handles : Handles) : (fuel : Nat) → (first : Bool) → List Node → Cursor →
    NodeRead
  | 0, _, _, _ => none
  | fuel + 1, first, found, c =>
    if c.at? [.flowSequenceEnd] then some (.sequence found.reverse, c.next)
    else if !first && !c.at? [.separator] then none
    else
      let c := if first then c else c.next
      if c.at? [.flowSequenceEnd] then some (.sequence found.reverse, c.next)
      else
        let item :=
          if c.at? [.key] then readPair handles fuel c.next
          else readNode handles fuel false false c
        item.bind fun (node, c) => readFlowItems handles fuel false (node :: found) c

def readFlowEntries (handles : Handles) : (fuel : Nat) → (first : Bool) → List (Node × Node) →
    Cursor → NodeRead
  | 0, _, _, _ => none
  | fuel + 1, first, found, c =>
    if c.at? [.flowMappingEnd] then some (.mapping found.reverse, c.next)
    else if !first && !c.at? [.separator] then none
    else
      let c := if first then c else c.next
      if c.at? [.flowMappingEnd] then some (.mapping found.reverse, c.next)
      else if c.at? [.key] then
        let key :=
          if c.next.at? [.value, .separator, .flowMappingEnd] then some (.empty, c.next)
          else readNode handles fuel false false c.next
        match key with
        | none => none
        | some (key, c) =>
          (readFlowValue handles fuel .flowMappingEnd c).bind fun (value, c) =>
            readFlowEntries handles fuel false ((key, value) :: found) c
      else
        (readNode handles fuel false false c).bind fun (key, c) =>
          readFlowEntries handles fuel false ((key, .empty) :: found) c

end

end WindowFold.Yaml
