import WindowFold.Yaml.Scalar

/-! Reading text that is written line by line. -/
namespace WindowFold.Yaml

/-- What becomes of the line breaks at the end. -/
inductive Chomp where
  | strip
  | clip
  | keep
  deriving DecidableEq

structure LinesHeader where
  chomp : Chomp
  /-- How much deeper than its surroundings the text is indented, if that is said. -/
  indent : Option Nat

private def chompSign? (c : Char) : Option Chomp :=
  if c = '-' then some .strip else if c = '+' then some .keep else none

private def indentSign? (c : Char) : Option Nat :=
  if '1' ≤ c && c ≤ '9' then some (c.toNat - '0'.toNat) else none

/-- The two signs behind a bar, in either order, each at most once. -/
def readSigns (p : Place) : LinesHeader × Place :=
  match p.rest.head?.bind chompSign?, p.rest.head?.bind indentSign? with
  | some chomp, _ =>
    let p := p.skip 1
    match p.rest.head?.bind indentSign? with
    | some n => (⟨chomp, some n⟩, p.skip 1)
    | none => (⟨chomp, none⟩, p)
  | none, some n =>
    let p := p.skip 1
    match p.rest.head?.bind chompSign? with
    | some chomp => (⟨chomp, some n⟩, p.skip 1)
    | none => (⟨.clip, some n⟩, p)
  | none, none => (⟨.clip, none⟩, p)

/-- The line breaks before the first line of text, the last of them first, the
place of that line, and the widest column seen. A tab in the indentation is refused. -/
def skipEmptyLines : List Char → Position → (breaks : List Char) → (widest : Nat) →
    Option (List Char × Place × Nat)
  | [], p, breaks, widest => some (breaks, ⟨[], p⟩, max widest p.column)
  | c :: rest, p, breaks, widest =>
    if c = ' ' then skipEmptyLines rest (p.after c) breaks widest
    else if c = '\t' then none
    else if isBreak c then skipEmptyLines rest (p.after c) (c :: breaks) (max widest p.column)
    else some (breaks, ⟨c :: rest, p⟩, max widest p.column)

/-- Lines that have been read. -/
structure LinesRead where
  /-- The text so far, the last character first. -/
  text : List Char
  /-- The break behind the last line, and the breaks of empty lines after it. -/
  pending : Option Char
  later : List Char
  /-- The last line begins with a blank. -/
  afterBlank : Bool

/-- Joins a line that begins with `c`: folded lines become one, unless one of
them begins with a blank. -/
def LinesRead.join (folded : Bool) (c : Char) (r : LinesRead) : LinesRead :=
  let between :=
    if folded && r.pending = some '\n' && !r.afterBlank && !isBlank c then
      if r.later.isEmpty then [' '] else r.later
    else r.later ++ r.pending.toList
  ⟨between ++ r.text, none, [], isBlank c⟩

/-- Reads lines that are indented by `indent`. -/
def readLinesFrom (folded : Bool) (indent : Nat) :
    List Char → Position → (inLine : Bool) → LinesRead → Option (LinesRead × Place)
  | [], p, _, r => some (r, ⟨[], p⟩)
  | c :: rest, p, true, r =>
    if isBreak c then readLinesFrom folded indent rest (p.after c) false
      { r with pending := some c }
    else readLinesFrom folded indent rest (p.after c) true { r with text := c :: r.text }
  | c :: rest, p, false, r =>
    if p.column < indent && c = ' ' then readLinesFrom folded indent rest (p.after c) false r
    else if p.column < indent && c = '\t' then none
    else if isBreak c then
      readLinesFrom folded indent rest (p.after c) false { r with later := c :: r.later }
    else if p.column = indent then
      let r := r.join folded c
      readLinesFrom folded indent rest (p.after c) true { r with text := c :: r.text }
    else some (r, ⟨c :: rest, p⟩)

/-- Reads what follows the bar of a text that stands at column `level` or deeper. -/
def readLines (folded : Bool) (level : Nat) (p : Place) : Option (String × Place) :=
  let (header, p) := readSigns p
  match p.endLine? with
  | none => none
  | some p =>
    let start : Option (Nat × List Char × Place) :=
      match header.indent with
      | some n => some (level - 1 + n, [], p)
      | none =>
        (skipEmptyLines p.rest p.position [] 0).map fun (breaks, p, widest) =>
          (max widest (max level 1), breaks, p)
    match start with
    | none => none
    | some (indent, breaks, p) =>
      (readLinesFrom folded indent p.rest p.position false ⟨[], none, breaks, false⟩).map
        fun (r, p) =>
          let ending :=
            match header.chomp with
            | .strip => []
            | .clip => r.pending.toList
            | .keep => r.later ++ r.pending.toList
          (String.ofList (ending ++ r.text).reverse, p)

end WindowFold.Yaml
