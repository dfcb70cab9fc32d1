import WindowFold.Yaml.Character

/-! Places in a text that is being read. -/
namespace WindowFold.Yaml

structure Position where
  column : Nat
  line : Nat
  /-- Bytes before it. -/
  offset : Nat
  deriving DecidableEq

namespace Position

def start : Position := ⟨0, 0, 0⟩

/-- The position behind a character. -/
def after (p : Position) (c : Char) : Position :=
  if isBreak c then ⟨0, p.line + 1, p.offset + c.utf8Size⟩
  else ⟨p.column + 1, p.line, p.offset + c.utf8Size⟩

end Position

/-- A position, and what is still to be read from there. -/
structure Place where
  rest : List Char
  position : Position
  deriving DecidableEq

namespace Place

def column (p : Place) : Nat := p.position.column

def skip : (count : Nat) → Place → Place
  | 0, p => p
  | _ + 1, ⟨[], position⟩ => ⟨[], position⟩
  | count + 1, ⟨c :: rest, position⟩ => skip count ⟨rest, position.after c⟩

/-- The characters of a class from here on, and the place behind them. -/
def span (p : Place) (test : Char → Bool) : List Char × Place :=
  let word := p.rest.takeWhile test
  (word, p.skip word.length)

def skipWhile (p : Place) (test : Char → Bool) : Place := (p.span test).2

def startsWith (p : Place) (c : Char) : Bool := p.rest.head? = some c

def endsWord (p : Place) : Bool := Yaml.endsWord p.rest

/-- A mark between documents. -/
def atMark (p : Place) : Bool := p.column = 0 && (isMark '-' p.rest || isMark '.' p.rest)

/-- Skips blanks, and a comment behind them. -/
def skipComment (p : Place) : Place :=
  let p := p.skipWhile isBlank
  if p.startsWith '#' then p.skipWhile (!isBreak ·) else p

/-- The place behind a line of which nothing but blanks and a comment is left. -/
def endLine? (p : Place) : Option Place :=
  let p := p.skipComment
  match p.rest with
  | [] => some p
  | c :: _ => if isBreak c then some (p.skip 1) else none

end Place
end WindowFold.Yaml
