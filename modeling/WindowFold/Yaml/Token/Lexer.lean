import WindowFold.Yaml.Scalar.Lines
import WindowFold.Yaml.Token.Direction

/-! Tokens of a text. Whether a node is a key shows only at the colon behind it,
so places where a key may have begun are kept until then. -/
namespace WindowFold.Yaml

/-- A place where a key may have begun. -/
structure KeyCandidate where
  /-- Tokens before it. -/
  count : Nat
  position : Position
  /-- Nothing else than a key can stand there. -/
  required : Bool

/-- The key is on one line and has 1024 bytes at most. -/
def KeyCandidate.reaches (k : KeyCandidate) (p : Position) : Bool :=
  k.position.line = p.line && p.offset ≤ k.position.offset + 1024

structure Lexer where
  place : Place
  /-- The tokens so far, the latest first, and their number. -/
  tokens : List Token
  count : Nat
  /-- Columns of the collections that are open by their indentation, the innermost first. -/
  columns : List Nat
  /-- The key that may have begun in this flow, and those of the flows around it. -/
  candidate : Option KeyCandidate
  outer : List (Option KeyCandidate)
  /-- Whether a key may begin here. -/
  keyAllowed : Bool

namespace Lexer

def start (text : List Char) : Lexer := ⟨⟨text, .start⟩, [], 0, [], none, [], true⟩

def inFlow (s : Lexer) : Bool := !s.outer.isEmpty

/-- The least column of what stands within the innermost collection. -/
def level (s : Lexer) : Nat :=
  match s.columns with
  | [] => 0
  | column :: _ => column + 1

def push (token : Token) (s : Lexer) : Lexer :=
  { s with tokens := token :: s.tokens, count := s.count + 1 }

/-- A token of so many characters. -/
def accept (token : Token) (size : Nat) (s : Lexer) : Lexer :=
  { s.push token with place := s.place.skip size }

/-- Puts a token in front of those that came after the first `count`. -/
def insert (count : Nat) (token : Token) (s : Lexer) : Lexer :=
  let later := s.tokens.take (s.count - count)
  let earlier := s.tokens.drop (s.count - count)
  { s with tokens := later ++ token :: earlier, count := s.count + 1 }

/-! ### Keys and indentation -/

/-- No key has begun here after all. -/
def dropCandidate (s : Lexer) : Option Lexer :=
  match s.candidate with
  | some k => if k.required then none else some { s with candidate := none }
  | none => some s

/-- A key may begin here. -/
def saveCandidate (s : Lexer) : Option Lexer :=
  if s.keyAllowed then
    let required := !s.inFlow && s.columns.head? = some s.place.column
    s.dropCandidate.map fun s => { s with candidate := some ⟨s.count, s.place.position, required⟩ }
  else some s

/-- Drops the keys that cannot reach this far. -/
def dropStale (s : Lexer) : Option Lexer :=
  let stale (k : KeyCandidate) : Bool := !k.reaches s.place.position
  if (s.candidate :: s.outer).any (·.any fun k => stale k && k.required) then none
  else
    let fresh (k : Option KeyCandidate) : Option KeyCandidate := k.filter (!stale ·)
    some { s with candidate := fresh s.candidate, outer := s.outer.map fresh }

/-- Opens a collection at a column, unless one is open there. Its beginning
stands in front of the tokens after the first `count`. -/
def openAt (column count : Nat) (token : Token) (s : Lexer) : Lexer :=
  if s.inFlow || column < s.level then s
  else { s.insert count token with columns := column :: s.columns }

private def closeColumns (keep : Nat → Bool) : List Nat → List Token → Nat →
    List Nat × List Token × Nat
  | [], tokens, count => ([], tokens, count)
  | column :: columns, tokens, count =>
    if keep column then (column :: columns, tokens, count)
    else closeColumns keep columns (.blockEnd :: tokens) (count + 1)

/-- Closes the collections whose columns are not kept. -/
def closeUnless (keep : Nat → Bool) (s : Lexer) : Lexer :=
  if s.inFlow then s
  else
    let (columns, tokens, count) := closeColumns keep s.columns s.tokens s.count
    { s with columns, tokens, count }

@[simp] theorem closeUnless_place (keep : Nat → Bool) (s : Lexer) :
    (s.closeUnless keep).place = s.place := by
  rw [closeUnless]
  split <;> rfl

theorem closeUnless_kept {keep : Nat → Bool} {s : Lexer}
    (kept : ∀ column ∈ s.columns.head?, keep column = true) : s.closeUnless keep = s := by
  obtain ⟨place, tokens, count, columns, candidate, outer, keyAllowed⟩ := s
  rw [closeUnless]
  split
  · rfl
  · cases columns with
    | nil => rfl
    | cons column columns => simp only [closeColumns, kept column rfl, if_true]

theorem closeUnless_closed {keep : Nat → Bool} {s : Lexer} {column : Nat} {columns : List Nat}
    (outside : s.outer = []) (first : s.columns = column :: columns)
    (closed : keep column = false) :
    s.closeUnless keep = ({ s.push .blockEnd with columns } : Lexer).closeUnless keep := by
  obtain ⟨place, tokens, count, _, candidate, _, keyAllowed⟩ := s
  cases outside
  cases first
  simp [closeUnless, inFlow, closeColumns, closed, push]

/-! ### Between tokens -/

/-- Skips blanks, comments and line breaks. Outside of the flow, a new line may
begin a key, and no tab may stand where a key may begin. A byte order mark may
begin a line. -/
def skipGap (inFlow : Bool) : List Char → Position → (keyAllowed inComment : Bool) → Place × Bool
  | [], p, keyAllowed, _ => (⟨[], p⟩, keyAllowed)
  | c :: rest, p, keyAllowed, inComment =>
    if isBreak c then skipGap inFlow rest (p.after c) (keyAllowed || !inFlow) false
    else if inComment || c = ' ' || (c = '\t' && (inFlow || !keyAllowed))
        || (c = '\ufeff' && p.column = 0) then
      skipGap inFlow rest (p.after c) keyAllowed inComment
    else if c = '#' then skipGap inFlow rest (p.after c) keyAllowed true
    else (⟨c :: rest, p⟩, keyAllowed)

/-- Goes on to the next token. -/
def advance (s : Lexer) : Option Lexer :=
  let (place, keyAllowed) := skipGap s.inFlow s.place.rest s.place.position s.keyAllowed false
  ({ s with place, keyAllowed } : Lexer).dropStale.map fun s =>
    s.closeUnless (· ≤ s.place.column)

/-! ### Tokens -/

/-- Ends all collections, before a direction, a mark or the end. -/
def reset (s : Lexer) : Option Lexer :=
  (s.closeUnless fun _ => false).dropCandidate.map fun s => { s with keyAllowed := false }

def direction (s : Lexer) : Option Lexer :=
  s.reset.bind fun s => (readDirection s.place).map fun (token, place) =>
    { s.push token with place }

def mark (token : Token) (s : Lexer) : Option Lexer := s.reset.map (·.accept token 3)

def flowStart (token : Token) (s : Lexer) : Option Lexer :=
  s.saveCandidate.map fun s =>
    { s.accept token 1 with candidate := none, outer := s.candidate :: s.outer, keyAllowed := true }

def flowEnd (token : Token) (s : Lexer) : Option Lexer :=
  s.dropCandidate.map fun s =>
    { s.accept token 1 with
      candidate := s.outer.head?.join, outer := s.outer.drop 1, keyAllowed := false }

def separator (s : Lexer) : Option Lexer :=
  s.dropCandidate.map fun s => { s.accept .separator 1 with keyAllowed := true }

/-- A dash in the flow is a token too, but no node has it. -/
def item (s : Lexer) : Option Lexer :=
  if !s.inFlow && !s.keyAllowed then none
  else
    (s.openAt s.place.column s.count .sequenceStart).dropCandidate.map fun s =>
      { s.accept .item 1 with keyAllowed := true }

/-- A question mark. -/
def key (s : Lexer) : Option Lexer :=
  if !s.inFlow && !s.keyAllowed then none
  else
    (s.openAt s.place.column s.count .mappingStart).dropCandidate.map fun s =>
      { s.accept .key 1 with keyAllowed := !s.inFlow }

/-- A colon: what began last is a key, or a key stands by itself before it. -/
def value (s : Lexer) : Option Lexer :=
  match s.candidate with
  | some k =>
    let s := (s.insert k.count .key).openAt k.position.column k.count .mappingStart
    some { s.accept .value 1 with candidate := none, keyAllowed := false }
  | none =>
    if !s.inFlow && !s.keyAllowed then none
    else
      let s := s.openAt s.place.column s.count .mappingStart
      some { s.accept .value 1 with keyAllowed := !s.inFlow }

/-- A name, behind its sign. -/
def readName (p : Place) : Option (String × Place) :=
  let (name, q) := p.span isNameSign
  let ends := q.endsWord || q.rest.head?.any fun c => "?:,]%@\x60\x7d".toList.contains c
  if name.isEmpty || !ends then none else some (String.ofList name, q)

/-- A token that may begin a key, but within which none begins. -/
def keep (s : Lexer) (read : Place → Option (Token × Place)) : Option Lexer :=
  s.saveCandidate.bind fun s =>
    (read s.place).map fun (token, place) => { s.push token with place, keyAllowed := false }

/-- Text, behind which a key may begin on a new line. -/
def text (s : Lexer) (style : Style) (read : Place → Option ScalarRead) : Option Lexer :=
  s.saveCandidate.bind fun s =>
    (read s.place).map fun r =>
      { s.push (.scalar style r.text) with place := r.place, keyAllowed := r.onNewLine }

def lines (style : Style) (s : Lexer) : Option Lexer :=
  s.dropCandidate.bind fun s =>
    (readLines (style = .folded) s.level (s.place.skip 1)).map fun (text, place) =>
      { s.push (.scalar style text) with place, keyAllowed := true }

/-- Plain text begins with any other sign; a dash, a question mark and a colon
must not stand alone, and the latter two not in the flow. -/
def startsPlain (s : Lexer) (c : Char) (rest : List Char) : Bool :=
  if isBlank c || isBreak c then false
  else if c = '-' then !rest.head?.any isBlank
  else if c = '?' || c = ':' then !s.inFlow && !endsWord rest
  else !isFlowSign c && !reservedSigns.contains c

/-- The token that begins here. -/
def step (s : Lexer) (c : Char) (rest : List Char) : Option Lexer :=
  if s.place.column = 0 && c = '%' then s.direction
  else if s.place.column = 0 && isMark '-' (c :: rest) then s.mark .documentStart
  else if s.place.column = 0 && isMark '.' (c :: rest) then s.mark .documentEnd
  else if c = '[' then s.flowStart .flowSequenceStart
  else if c = '\x7b' then s.flowStart .flowMappingStart
  else if c = ']' then s.flowEnd .flowSequenceEnd
  else if c = '\x7d' then s.flowEnd .flowMappingEnd
  else if c = ',' then s.separator
  else if c = '-' && endsWord rest then s.item
  else if c = '?' && (s.inFlow || endsWord rest) then s.key
  else if c = ':' && (s.inFlow || endsWord rest) then s.value
  else if c = '&' then
    s.keep fun p => (readName (p.skip 1)).map fun (name, q) => (.name name, q)
  else if c = '*' then
    s.keep fun p => (readName (p.skip 1)).map fun (name, q) => (.repetition name, q)
  else if c = '!' then
    s.keep fun p => (readTag s.inFlow p).map fun ((handle, suffix), q) => (.tag handle suffix, q)
  else if c = '|' && !s.inFlow then s.lines .literal
  else if c = '>' && !s.inFlow then s.lines .folded
  else if c = '\'' || c = '"' then s.text .quoted readQuoted
  else if s.startsPlain c rest then s.text .plain (readPlain s.inFlow s.level)
  else none

/-- Every token has a character at least, so there are no more of them than characters. -/
def run : (fuel : Nat) → Lexer → Option (List Token)
  | 0, _ => none
  | fuel + 1, s =>
    match s.advance with
    | none => none
    | some s =>
      match s.place.rest with
      | [] => s.reset.map (·.tokens.reverse)
      | c :: rest =>
        match s.step c rest with
        | none => none
        | some s => run fuel s

end Lexer

/-- The tokens of a text. -/
def Token.ofText? (text : String) : Option (List Token) :=
  let cs := text.toList
  if cs.all isAllowed then
    let cs := unifyBreaks cs
    (Lexer.start cs).run (cs.length + 1)
  else none

end WindowFold.Yaml
